import WireBench.Json.Render
import WireBench.Proofs.JsonCanonical

/-!
# Writing is read back

What is written for a canonical value whose numbers are integers is a JSON text of it, as long as
not too many containers stand inside each other. So it is parsed to the value, and depends on the
value alone.
-/

namespace WireBench.Json

variable {room level : Nat} {v u : Value} {vs done : List Value} {ms front : List (String × Value)}
  {name : String} {c : Char} {cs : List Char} {ts us : List Token}

/-! ### Texts -/

theorem hexFour?_control : ∀ n < 0x20,
    Token.hexFour? '0' '0' (Bytes.hexDigit (n / 16)) (Bytes.hexDigit (n % 16)) = some n := by
  decide

theorem charSpelling_escapeChar (c : Char) : CharSpelling c (escapeChar c) := by
  have hchar : ∀ n, c.toNat = n → c = Char.ofNat n := fun n h => by rw [← h, Char.ofNat_toNat]
  rw [escapeChar]
  split
  · next h => rw [h]; exact .short (by decide)
  split
  · next h => rw [h]; exact .short (by decide)
  split
  · next hcontrol =>
    split
    · next h => rw [hchar 8 h]; exact .short (by decide)
    split
    · next h => rw [hchar 12 h]; exact .short (by decide)
    split
    · next h => rw [h]; exact .short (by decide)
    split
    · next h => rw [h]; exact .short (by decide)
    split
    · next h => rw [h]; exact .short (by decide)
    · have hnumber := CharSpelling.number (hexFour?_control c.toNat hcontrol) (by omega)
      rwa [Char.ofNat_toNat] at hnumber
  · next hquote hbackslash hplain => exact .plain (Nat.le_of_not_lt hplain) hquote hbackslash

theorem textSpelling_escape (cs : List Char) : TextSpelling cs (cs.flatMap escapeChar) := by
  induction cs with
  | nil => exact .nil
  | cons c cs ih => exact .cons (charSpelling_escapeChar c) ih

/-- Every text is spelled by what is written for it. -/
theorem tokenSpelling_quote (s : String) : TokenSpelling (.text s) (quote s) :=
  .text (textSpelling_escape s.toList)

/-! ### Tokens -/

mutual

/-- The tokens with which a value is written. -/
def Value.tokens : Value → List Token
  | .null => [.null]
  | .bool b => [.bool b]
  | .number n => [.number n]
  | .text s => [.text s]
  | .array [] => [.openArray, .closeArray]
  | .array (v :: vs) => .openArray :: (v.tokens ++ (tokensOfElements vs ++ [.closeArray]))
  | .object [] => [.openObject, .closeObject]
  | .object ((name, v) :: ms) =>
    .openObject :: .text name :: .colon :: (v.tokens ++ (tokensOfMembers ms ++ [.closeObject]))

def tokensOfElements : List Value → List Token
  | [] => []
  | v :: vs => .comma :: (v.tokens ++ tokensOfElements vs)

def tokensOfMembers : List (String × Value) → List Token
  | [] => []
  | (name, v) :: ms => .comma :: .text name :: .colon :: (v.tokens ++ tokensOfMembers ms)

end

theorem written_array (hvs : ElementsWritten room done ts) (hu : Written room u us)
    (hmore : ∀ v ∈ vs, Written room v v.tokens) :
    Written (room + 1) (.array (done ++ u :: vs))
      (.openArray :: (ts ++ (us ++ (tokensOfElements vs ++ [.closeArray])))) := by
  induction vs generalizing done u ts us with
  | nil => exact .array hvs hu
  | cons v vs ih =>
    obtain ⟨hv, hrest⟩ := List.forall_mem_cons.1 hmore
    have harray := ih (hvs.more hu) hv hrest
    simpa only [tokensOfElements, List.append_assoc, List.cons_append, List.nil_append] using harray

theorem written_object (hms : MembersWritten room front ts) (hu : Written room u us)
    (hmore : ∀ m ∈ ms, Written room m.2 m.2.tokens) :
    Written (room + 1) (.ofMembers (front ++ (name, u) :: ms))
      (.openObject :: (ts ++ (.text name :: .colon ::
        (us ++ (tokensOfMembers ms ++ [.closeObject]))))) := by
  induction ms generalizing front name u ts us with
  | nil => exact .object hms hu
  | cons m ms ih =>
    obtain ⟨key, v⟩ := m
    obtain ⟨hv, hrest⟩ := List.forall_mem_cons.1 hmore
    have hfront := @MembersWritten.more _ _ name _ _ _ hms hu
    have hobject := @ih v _ key _ _ hfront hv hrest
    simpa only [tokensOfMembers, List.append_assoc, List.cons_append, List.nil_append] using hobject

theorem Value.IsCanonical.written_tokens (h : v.IsCanonical) (hdepth : v.depth ≤ room) :
    Written room v v.tokens := by
  induction h generalizing room with
  | null => exact .null
  | bool => exact .bool
  | number => exact .number
  | text => exact .text
  | @array vs hvs ih =>
    obtain ⟨less, rfl⟩ := Nat.exists_eq_add_one.2 (Nat.lt_of_lt_of_le (Nat.succ_pos _) hdepth)
    have helements := depthOfElements_le_iff.1 (Nat.le_of_succ_le_succ hdepth)
    cases vs with
    | nil => exact .emptyArray
    | cons v vs =>
      have htokens := fun v hv => ih v hv (helements v hv)
      obtain ⟨hv, hrest⟩ := List.forall_mem_cons.1 htokens
      exact written_array .none hv hrest
  | @object ms hordered hms ih =>
    obtain ⟨less, rfl⟩ := Nat.exists_eq_add_one.2 (Nat.lt_of_lt_of_le (Nat.succ_pos _) hdepth)
    have hmembers := depthOfMembers_le_iff.1 (Nat.le_of_succ_le_succ hdepth)
    cases ms with
    | nil => exact .emptyObject
    | cons m ms =>
      obtain ⟨name, v⟩ := m
      have htokens := fun m hm => ih m hm (hmembers m hm)
      obtain ⟨hv, hrest⟩ := List.forall_mem_cons.1 htokens
      have hobject : Written (less + 1) (.ofMembers ([] ++ (name, v) :: ms))
          (Value.object ((name, v) :: ms)).tokens := written_object .none hv hrest
      rwa [List.nil_append, Value.ofMembers, Members.ofList_of_isOrdered hordered] at hobject

/-! ### Characters -/

theorem Spelled.newline (h : Spelled ts cs) (level : Nat) : Spelled ts (newline level ++ cs) := by
  have hspaces : ∀ k, Spelled ts (List.replicate k ' ' ++ cs) := by
    intro k
    induction k with
    | zero => exact h
    | succ k ih => exact .gap (by decide) ih
  exact .gap (by decide) (hspaces (2 * level))

theorem EndsNumber.cons (h : goesOn c = false) : EndsNumber (c :: cs) := by
  intro first hfirst
  obtain rfl := Option.some.inj hfirst
  exact h

theorem endsNumber_newline (level : Nat) (cs : List Char) : EndsNumber (newline level ++ cs) :=
  .cons (by decide)

theorem endsNumber_renderElements (h : EndsNumber cs) :
    EndsNumber (renderElements level vs ++ cs) := by
  cases vs with
  | nil => exact h
  | cons v vs => exact .cons (by decide)

theorem endsNumber_renderMembers (h : EndsNumber cs) :
    EndsNumber (renderMembers level ms ++ cs) := by
  cases ms with
  | nil => exact h
  | cons m ms => exact .cons (by decide)

/-- A name and the colon behind it, in front of a value. -/
theorem spelled_member (key : String) (h : Spelled ts cs) :
    Spelled (.text key :: .colon :: ts) (quote key ++ ':' :: ' ' :: cs) :=
  .token (tokenSpelling_quote key) nofun (.token .colon nofun (.gap (by decide) h))

/-- What is written for a value spells its tokens, whatever is spelled behind it. -/
def RendersTokens (v : Value) : Prop :=
  ∀ (level : Nat) (ts : List Token) (cs : List Char), Spelled ts cs → EndsNumber cs →
    Spelled (v.tokens ++ ts) (v.render level ++ cs)

theorem RendersTokens.elements (h : ∀ v ∈ vs, RendersTokens v) (hcs : Spelled ts cs)
    (hends : EndsNumber cs) (level : Nat) :
    Spelled (tokensOfElements vs ++ ts) (renderElements level vs ++ cs) := by
  induction vs with
  | nil => exact hcs
  | cons v vs ih =>
    obtain ⟨hv, hvs⟩ := List.forall_mem_cons.1 h
    have hrest := hv level _ _ (ih hvs) (endsNumber_renderElements hends)
    rw [tokensOfElements, renderElements, List.cons_append, List.cons_append, List.append_assoc,
      List.append_assoc, List.append_assoc]
    exact .token .comma nofun (hrest.newline level)

theorem RendersTokens.members (h : ∀ m ∈ ms, RendersTokens m.2) (hcs : Spelled ts cs)
    (hends : EndsNumber cs) (level : Nat) :
    Spelled (tokensOfMembers ms ++ ts) (renderMembers level ms ++ cs) := by
  induction ms with
  | nil => exact hcs
  | cons m ms ih =>
    obtain ⟨key, v⟩ := m
    obtain ⟨hv, hms⟩ := List.forall_mem_cons.1 h
    have hrest := hv level _ _ (ih hms) (endsNumber_renderMembers hends)
    simp only [tokensOfMembers, renderMembers, List.cons_append, List.append_assoc]
    exact .token .comma nofun (.newline (spelled_member key hrest) level)

/-- What is written for a canonical value whose numbers are integers spells its tokens. -/
theorem Value.IsCanonical.rendersTokens (h : v.IsCanonical) (hexact : v.isExact = true) :
    RendersTokens v := by
  induction h with
  | null => exact fun _ _ _ hcs _ => .token .nullWord nofun hcs
  | @bool b => cases b with
    | true => exact fun _ _ _ hcs _ => .token .trueWord nofun hcs
    | false => exact fun _ _ _ hcs _ => .token .falseWord nofun hcs
  | number hstored =>
    -- Only a number needs what follows it to end it: every other token ends by itself.
    exact fun _ _ _ hcs hends => .token (tokenSpelling_toText hstored hexact) (fun _ _ => hends) hcs
  | text => exact fun _ _ _ hcs _ => .token (tokenSpelling_quote _) nofun hcs
  | @array vs hvs ih =>
    intro level ts cs hcs hends
    cases vs with
    | nil =>
      have hclose : Spelled (.closeArray :: ts) (']' :: cs) := .token .closeArray nofun hcs
      simp only [Value.tokens, Value.render, List.cons_append, List.nil_append]
      exact .token .openArray nofun hclose
    | cons v vs =>
      have hrender := fun v hv => ih v hv (elementsAreExact_iff.1 hexact v hv)
      obtain ⟨hv, hvs⟩ := List.forall_mem_cons.1 hrender
      have hclose := (Spelled.token .closeArray nofun hcs).newline level
      have hends := endsNumber_newline level (']' :: cs)
      have hrest := RendersTokens.elements hvs hclose hends (level + 1)
      have hfirst := hv (level + 1) _ _ hrest (endsNumber_renderElements hends)
      simp only [Value.tokens, Value.render, List.cons_append, List.append_assoc, List.nil_append]
      exact .token .openArray nofun (hfirst.newline (level + 1))
  | @object ms hordered hms ih =>
    intro level ts cs hcs hends
    cases ms with
    | nil =>
      have hclose : Spelled (.closeObject :: ts) ('\x7d' :: cs) := .token .closeObject nofun hcs
      simp only [Value.tokens, Value.render, List.cons_append, List.nil_append]
      exact .token .openObject nofun hclose
    | cons m ms =>
      obtain ⟨name, v⟩ := m
      have hrender := fun m hm => ih m hm (membersAreExact_iff.1 hexact m hm)
      obtain ⟨hv, hms⟩ := List.forall_mem_cons.1 hrender
      have hclose := (Spelled.token .closeObject nofun hcs).newline level
      have hends := endsNumber_newline level ('\x7d' :: cs)
      have hrest := RendersTokens.members hms hclose hends (level + 1)
      have hfirst := hv (level + 1) _ _ hrest (endsNumber_renderMembers hends)
      simp only [Value.tokens, Value.render, List.cons_append, List.append_assoc, List.nil_append]
      exact .token .openObject nofun ((spelled_member name hfirst).newline (level + 1))

/-- What is written for a writable value is a text of it. -/
theorem isText_toBytes (h : v.IsWritable Expecting.depthLimit) : IsText v.toBytes v := by
  have hspelled := h.canonical.rendersTokens h.exact 0 [] [] .nil nofun
  rw [List.append_nil, List.append_nil] at hspelled
  exact ⟨_, _, rfl, hspelled, h.canonical.written_tokens h.depth⟩

end WireBench.Json
