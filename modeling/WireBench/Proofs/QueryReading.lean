import WireBench.Http.Request
import WireBench.Http.Spelling
import WireBench.Proofs.Literals
import WireBench.Proofs.Utf8Bytes

/-!
# Query strings read back

However the keys and values of a query string are spelled, each is read as the text that it spells,
and the value found under a name is that of the first pair whose key is that name.
-/

namespace WireBench.Http

open WireBench.Text

namespace Query

variable {b : UInt8} {bs : Bytes} {c : Char} {cs spelling : List Char} {inKey : Bool}

/-! ### Texts -/

theorem of_mem_hexDigits {n : Nat} (hn : n < 16) (h : c ∈ hexDigits n) :
    c.toNat < 128 ∧ Bytes.hexValue? (UInt8.ofNat c.toNat) = some (UInt8.ofNat n) ∧ c ≠ '&' ∧
      c ≠ '=' := by
  have hall : ∀ n < 16, (hexDigits n).all (fun c => decide (c.toNat < 128 ∧
      Bytes.hexValue? (UInt8.ofNat c.toNat) = some (UInt8.ofNat n) ∧ c ≠ '&' ∧ c ≠ '=')) = true := by
    decide
  exact of_decide_eq_true (List.all_eq_true.1 (hall n hn) c h)

theorem unescapeFrom_cons (hb : b ≠ percent) (done rest : Bytes) :
    unescapeFrom done (b :: rest) =
      unescapeFrom ((if b = plus then Bytes.space else b) :: done) rest := by
  rcases rest with _ | ⟨high, _ | ⟨low, rest⟩⟩
  · simp [unescapeFrom]
  · simp [unescapeFrom]
  · simp [unescapeFrom, hb]

theorem unescapeFrom_escape {high low : UInt8} (h : escaped? high low = some b)
    (done rest : Bytes) :
    unescapeFrom done (percent :: high :: low :: rest) = unescapeFrom (b :: done) rest := by
  rw [unescapeFrom, if_pos rfl, h]

theorem unescapeFrom_append (h : ∀ b ∈ bs, b ≠ percent ∧ b ≠ plus) (done rest : Bytes) :
    unescapeFrom done (bs ++ rest) = unescapeFrom (bs.reverse ++ done) rest := by
  induction bs generalizing done with
  | nil => rfl
  | cons b bs ih =>
    obtain ⟨⟨hpercent, hplus⟩, hbs⟩ := List.forall_mem_cons.1 h
    rw [List.cons_append, unescapeFrom_cons hpercent, if_neg hplus, ih hbs]
    simp

theorem escaped?_of_mem_hexDigits {high low : Char} (hhigh : high ∈ hexDigits (b.toNat / 16))
    (hlow : low ∈ hexDigits (b.toNat % 16)) :
    escaped? (UInt8.ofNat high.toNat) (UInt8.ofNat low.toNat) = some b := by
  have hb := b.toNat_lt
  have hvalue : UInt8.ofNat (b.toNat / 16) * 16 + UInt8.ofNat (b.toNat % 16) = b := by
    apply UInt8.toNat.inj
    simp
    omega
  simp only [escaped?, (of_mem_hexDigits (by omega) hhigh).2.1,
    (of_mem_hexDigits (by omega) hlow).2.1, hvalue]

theorem unescapeFrom_escapes (h : EscapeSpelling bs spelling) (done rest : Bytes) :
    unescapeFrom done (Utf8.encodeChars spelling ++ rest) =
      unescapeFrom (bs.reverse ++ done) rest := by
  induction h generalizing done with
  | nil => rfl
  | @cons b bs digits cs hdigits _ ih =>
    obtain ⟨hhigh, hlow⟩ := hdigits
    have hb := b.toNat_lt
    rw [List.cons_append, List.cons_append, List.nil_append, Utf8.encodeChars_cons (by decide),
      Utf8.encodeChars_cons (of_mem_hexDigits (by omega) hhigh).1,
      Utf8.encodeChars_cons (of_mem_hexDigits (by omega) hlow).1]
    rw [List.reverse_cons, List.append_assoc]
    have hescape := escaped?_of_mem_hexDigits hhigh hlow
    exact (unescapeFrom_escape hescape done _).trans (ih (b :: done))

/-- A spelled character is read as the bytes that encode it, whatever follows. -/
theorem unescapeFrom_char (h : CharSpelling inKey c spelling) (done rest : Bytes) :
    unescapeFrom done (Utf8.encodeChars spelling ++ rest) =
      unescapeFrom ((Utf8.encodeChar c).reverse ++ done) rest := by
  cases h with
  | escapes hescapes => exact unescapeFrom_escapes hescapes done rest
  | plus => exact unescapeFrom_cons (by decide) done rest
  | literal hpercent hplus _ _ =>
    have hother : ∀ b ∈ Utf8.encodeChar c, b ≠ percent ∧ b ≠ plus := by
      intro b hb
      have hne : ∀ d : Char, d.toNat < 128 → c ≠ d → b ≠ UInt8.ofNat d.toNat := by
        rintro d hd hcd rfl
        have hvalue := Utf8.toNat_ofNat_ascii hd
        have heq := Utf8.toNat_eq_of_mem_encodeChar hb (by omega)
        exact hcd (Char.toNat_inj.1 (by omega))
      exact ⟨hne '%' (by decide) hpercent, hne '+' (by decide) hplus⟩
    have hchars : Utf8.encodeChars [c] = Utf8.encodeChar c := List.append_nil _
    rw [hchars, unescapeFrom_append hother]

theorem unescapeFrom_text (h : TextSpelling inKey cs spelling) (done : Bytes) :
    unescapeFrom done (Utf8.encodeChars spelling) = done.reverse ++ Utf8.encodeChars cs := by
  induction h generalizing done with
  | nil => simp [Utf8.encodeChars, unescapeFrom]
  | @cons c cs one more hone _ ih =>
    have hspelling : Utf8.encodeChars (one ++ more) =
        Utf8.encodeChars one ++ Utf8.encodeChars more := List.flatMap_append
    rw [hspelling, unescapeFrom_char hone, ih]
    simp [Utf8.encodeChars]

theorem decode_of_spelling {text : String} (h : TextSpelling inKey text.toList spelling) :
    decode (String.ofList spelling) = text := by
  have hbytes : unescapeFrom [] (Utf8.encode (String.ofList spelling)) = Utf8.encode text := by
    rw [Utf8.encode, String.toList_ofList]
    exact unescapeFrom_text h []
  rw [decode, hbytes, Utf8.decode?_encode, Option.getD_some]

theorem TextSpelling.literal
    (h : ∀ c ∈ cs, c ≠ '%' ∧ c ≠ '+' ∧ c ≠ '&' ∧ (inKey = true → c ≠ '=')) :
    TextSpelling inKey cs cs := by
  induction cs with
  | nil => exact .nil
  | cons c cs ih =>
    obtain ⟨⟨hpercent, hplus, hampersand, hequals⟩, hcs⟩ := List.forall_mem_cons.1 h
    exact .cons (.literal hpercent hplus hampersand hequals) (ih hcs)

/-! ### Pairs -/

theorem EscapeSpelling.no_separator (h : EscapeSpelling bs spelling) :
    ∀ c ∈ spelling, c ≠ '&' ∧ c ≠ '=' := by
  induction h with
  | nil => exact List.forall_mem_nil _
  | @cons b bs digits cs hdigits _ ih =>
    obtain ⟨hhigh, hlow⟩ := hdigits
    have hb := b.toNat_lt
    exact List.forall_mem_cons.2 ⟨by decide,
      List.forall_mem_cons.2 ⟨(of_mem_hexDigits (by omega) hhigh).2.2,
        List.forall_mem_cons.2 ⟨(of_mem_hexDigits (by omega) hlow).2.2, ih⟩⟩⟩

/-- The spelling of a text holds no ampersand, and that of a key no equals sign. -/
theorem TextSpelling.no_separator (h : TextSpelling inKey cs spelling) :
    ∀ c ∈ spelling, c ≠ '&' ∧ (inKey = true → c ≠ '=') := by
  induction h with
  | nil => exact List.forall_mem_nil _
  | cons hone _ ih =>
    refine List.forall_mem_append.2 ⟨?_, ih⟩
    cases hone with
    | literal _ _ hampersand hequals => exact List.forall_mem_singleton.2 ⟨hampersand, hequals⟩
    | escapes hescapes =>
      exact fun c hc => (hescapes.no_separator c hc).imp_right fun hequals _ => hequals
    | plus => exact List.forall_mem_singleton.2 ⟨by decide, fun _ => by decide⟩

def decodePair (pair : String × String) : String × String :=
  (decode pair.1, decode pair.2)

variable {pair : String × String} {pairs : List (String × String)}

theorem PairSpelling.read (h : PairSpelling pair spelling) :
    (∀ c ∈ spelling, (c == '&') = false) ∧ decodePair (keyValue spelling) = pair := by
  cases h with
  | bare hkey =>
    have hcut : cutWhere (· == '=') spelling = none :=
      (cutWhere_eq_none_iff _ spelling).2 fun c hc =>
        beq_eq_false_iff_ne.2 ((hkey.no_separator c hc).2 rfl)
    have hempty : decode "" = "" := @decode_of_spelling [] true "" .nil
    refine ⟨fun c hc => beq_eq_false_iff_ne.2 (hkey.no_separator c hc).1, ?_⟩
    rw [keyValue, hcut, decodePair, decode_of_spelling hkey, hempty]
  | @full key value ks vs hkey hvalue =>
    have hcut : cutWhere (· == '=') (ks ++ '=' :: vs) = some (ks, vs) :=
      cutWhere_append (fun c hc => beq_eq_false_iff_ne.2 ((hkey.no_separator c hc).2 rfl))
        (by decide) vs
    constructor
    · have hks : ∀ c ∈ ks, (c == '&') = false := fun c hc =>
        beq_eq_false_iff_ne.2 (hkey.no_separator c hc).1
      have hvs : ∀ c ∈ vs, (c == '&') = false := fun c hc =>
        beq_eq_false_iff_ne.2 (hvalue.no_separator c hc).1
      exact List.forall_mem_append.2 ⟨hks, List.forall_mem_cons.2 ⟨by decide, hvs⟩⟩
    · rw [keyValue, hcut, decodePair, decode_of_spelling hkey, decode_of_spelling hvalue]

/-- The pairs of a spelled query string are read one after the other. -/
theorem PairsSpelling.read (h : PairsSpelling pairs spelling) :
    ((splitWhere (· == '&') spelling).map keyValue).map decodePair = pairs := by
  induction h with
  | one hpair =>
    obtain ⟨hseparator, hread⟩ := hpair.read
    rw [splitWhere_eq_singleton hseparator, List.map_singleton, List.map_singleton, hread]
  | cons hpair _ ih =>
    obtain ⟨hseparator, hread⟩ := hpair.read
    rw [splitWhere_append hseparator (by decide), List.map_cons, List.map_cons, hread, ih]

/-- The value under a name in a spelled query string is that of the first pair with this key. -/
theorem PairsSpelling.param?_eq (h : PairsSpelling pairs spelling) (name : String) :
    param? (String.ofList spelling) name =
      (pairs.find? fun pair => pair.1 == name).map Prod.snd := by
  have hfirst : ∀ pairs : List (String × String),
      (pairs.findSome? fun pair => if pair.1 = name then some pair.2 else none) =
        (pairs.find? fun pair => pair.1 == name).map Prod.snd := by
    intro pairs
    induction pairs with
    | nil => rfl
    | cons pair pairs ih => by_cases hname : pair.1 = name <;> simp [hname, ih]
  rw [← hfirst pairs, ← h.read, List.findSome?_map, param?, String.toList_ofList]
  rfl

end Query

theorem Request.cutTarget_of_target {request : Request} {path : String} {query : List Char}
    (hpath : '?' ∉ path.toList) (htarget : request.target = path ++ "?" ++ String.ofList query) :
    request.cutTarget = some (path.toList, query) := by
  have hshape : request.target.toList = path.toList ++ '?' :: query := by simp [htarget]
  rw [cutTarget, hshape]
  refine cutWhere_append (fun c hc => beq_eq_false_iff_ne.2 ?_) (by decide) query
  rintro rfl
  exact hpath hc

/-- Whatever spelling of some pairs stands behind the path in the target of a request, the path is
what stands before it, and the parameter of a name is the value of the first pair with this key;
there is none only if no pair has this key. -/
theorem Request.param?_of_spelling {request : Request} {path : String} {query : List Char}
    {pairs : List (String × String)} (hpath : '?' ∉ path.toList)
    (hquery : Query.PairsSpelling pairs query)
    (htarget : request.target = path ++ "?" ++ String.ofList query) :
    request.path = path ∧ ∀ name,
      request.param? name = (pairs.find? fun pair => pair.1 == name).map Prod.snd ∧
      (request.param? name = none ↔ ∀ pair ∈ pairs, pair.1 ≠ name) := by
  have hcut := Request.cutTarget_of_target hpath htarget
  constructor
  · simp only [Request.path, hcut, String.ofList_toList]
  · intro name
    have hparam : request.param? name = (pairs.find? fun pair => pair.1 == name).map Prod.snd := by
      rw [Request.param?, Request.query?, hcut, Option.map_some, Option.bind_some]
      exact hquery.param?_eq name
    refine ⟨hparam, ?_⟩
    rw [hparam, Option.map_eq_none_iff, List.find?_eq_none]
    simp only [beq_iff_eq, ne_eq]

/-- The first key is escaped, in digits of both cases, and its value has an equals sign and a space;
then there are a key without a value and the first key again, as it is. -/
theorem Request.param?_of_mixed_spellings :
    let request : Request := { method := .get, target := "/get?%c3%A9==+&k&é=x",
                               version := "HTTP/1.1", headers := .empty, body := [] }
    '?' ∉ "/get".toList ∧
      Query.PairsSpelling [("é", "= "), ("k", ""), ("é", "x")] "%c3%A9==+&k&é=x".toList ∧
      request.target = "/get" ++ "?" ++ String.ofList "%c3%A9==+&k&é=x".toList ∧
      request.path = "/get" ∧ request.param? "é" = some "= " ∧ request.param? "k" = some "" ∧
      request.param? "x" = none := by
  intro request
  have hpath : '?' ∉ "/get".toList := by decide
  have htarget : request.target = "/get" ++ "?" ++ String.ofList "%c3%A9==+&k&é=x".toList := by
    rw [String.ofList_toList]
    decide
  have hkey : Query.TextSpelling true "é".toList (['%', 'c', '3', '%', 'A', '9'] ++ []) := by
    have hescapes : Query.EscapeSpelling [0xC3, 0xA9]
        ('%' :: (['c', '3'] ++ '%' :: (['A', '9'] ++ []))) :=
      .cons (.digits (by decide) (by decide)) (.cons (.digits (by decide) (by decide)) .nil)
    rw [String.toList_ofList]
    exact .cons (.escapes hescapes) .nil
  have hvalue : Query.TextSpelling false "= ".toList (['='] ++ (['+'] ++ [])) := by
    rw [String.toList_ofList]
    exact .cons (.literal (by decide) (by decide) (by decide) (by decide)) (.cons .plus .nil)
  have hquery : Query.PairsSpelling [("é", "= "), ("k", ""), ("é", "x")]
      "%c3%A9==+&k&é=x".toList := by
    rw [String.toList_ofList]
    exact .cons (.full hkey hvalue) (.cons (.bare (.literal (Text.forall_mem_ofList rfl)))
      (.one (.full (.literal (Text.forall_mem_ofList rfl)) (.literal (Text.forall_mem_ofList rfl)))))
  obtain ⟨hpathEq, hparam⟩ := Request.param?_of_spelling hpath hquery htarget
  exact ⟨hpath, hquery, htarget, hpathEq, (hparam "é").1, (hparam "k").1, (hparam "x").1⟩

end WireBench.Http
