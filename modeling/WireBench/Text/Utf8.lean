import WireBench.Bytes

/-!
# UTF-8

The encoding of text, the strict reading of bytes as text, and the reading that puts U+FFFD for
every ill-formed run. A run is as long as it could still have become a character, so that
`E2 82` before an ASCII letter is one run and `ED A0 80` is three. The strict reading accepts
exactly what the encoding produces.
-/

namespace WireBench.Utf8

def encodeChar (c : Char) : Bytes :=
  let n := c.toNat
  if n < 0x80 then [UInt8.ofNat n]
  else if n < 0x800 then [UInt8.ofNat (0xC0 + n / 64), UInt8.ofNat (0x80 + n % 64)]
  else if n < 0x10000 then
    [UInt8.ofNat (0xE0 + n / 4096), UInt8.ofNat (0x80 + n / 64 % 64), UInt8.ofNat (0x80 + n % 64)]
  else
    [UInt8.ofNat (0xF0 + n / 262144), UInt8.ofNat (0x80 + n / 4096 % 64),
      UInt8.ofNat (0x80 + n / 64 % 64), UInt8.ofNat (0x80 + n % 64)]

def encodeChars (cs : List Char) : Bytes :=
  cs.flatMap encodeChar

def encode (s : String) : Bytes :=
  encodeChars s.toList

@[simp] theorem encode_append (s t : String) : encode (s ++ t) = encode s ++ encode t := by
  simp [encode, encodeChars]

/-- What the first byte of a longer character announces: its share of the code point, the range
of the byte after it, and how many bytes follow that one. -/
structure Lead where
  bits : Nat
  low : Nat
  high : Nat
  more : Nat

/-- The announcement of a lead byte; the ranges exclude overlong forms, surrogates and code
points beyond the last. -/
def lead? (b : UInt8) : Option Lead :=
  let n := b.toNat
  if n < 0xC2 then none
  else if n < 0xE0 then some ⟨n - 0xC0, 0x80, 0xBF, 0⟩
  else if n = 0xE0 then some ⟨0, 0xA0, 0xBF, 1⟩
  else if n = 0xED then some ⟨13, 0x80, 0x9F, 1⟩
  else if n < 0xF0 then some ⟨n - 0xE0, 0x80, 0xBF, 1⟩
  else if n = 0xF0 then some ⟨0, 0x90, 0xBF, 2⟩
  else if n < 0xF4 then some ⟨n - 0xF0, 0x80, 0xBF, 2⟩
  else if n = 0xF4 then some ⟨4, 0x80, 0x8F, 2⟩
  else none

def readTail : Nat → Nat → Bytes → Option Char × Bytes
  | 0, v, bs => (some (Char.ofNat v), bs)
  | _ + 1, _, [] => (none, [])
  | k + 1, v, b :: bs =>
    if 0x80 ≤ b.toNat ∧ b.toNat ≤ 0xBF then readTail k (v * 64 + (b.toNat - 0x80)) bs
    else (none, b :: bs)

/-- Reads one character that starts with the byte `b`, or else passes over one ill-formed run. -/
def readChar (b : UInt8) (bs : Bytes) : Option Char × Bytes :=
  if b.toNat < 0x80 then (some (Char.ofNat b.toNat), bs)
  else match lead? b, bs with
    | some l, b' :: bs' =>
      if l.low ≤ b'.toNat ∧ b'.toNat ≤ l.high then
        readTail l.more (l.bits * 64 + (b'.toNat - 0x80)) bs'
      else (none, bs)
    | _, _ => (none, bs)

theorem readTail_length_le (k v : Nat) (bs : Bytes) : (readTail k v bs).2.length ≤ bs.length := by
  induction k generalizing v bs with
  | zero => simp [readTail]
  | succ k ih =>
    cases bs with
    | nil => simp [readTail]
    | cons b bs =>
      rw [readTail]
      split
      · exact Nat.le_trans (ih _ _) (by simp)
      · simp

theorem readChar_length_le (b : UInt8) (bs : Bytes) : (readChar b bs).2.length ≤ bs.length := by
  unfold readChar
  split
  · simp
  · split
    · split
      · exact Nat.le_trans (readTail_length_le _ _ _) (by simp)
      · simp
    · simp

/-- Reads text after the characters `done`, which are in reverse; ill-formed bytes end the
reading. -/
def decodeFrom (done : List Char) : Bytes → Option (List Char)
  | [] => some done.reverse
  | b :: bs =>
    match _h : readChar b bs with
    | (some c, rest) => decodeFrom (c :: done) rest
    | (none, _) => none
termination_by bs => bs.length
decreasing_by
  have hle := readChar_length_le b bs
  rw [_h] at hle
  exact Nat.lt_succ_of_le hle

def decode? (bs : Bytes) : Option String :=
  (decodeFrom [] bs).map String.ofList

/-- Reads text after the characters `done`, which are in reverse, with U+FFFD for every ill-formed
run. -/
def decodeLossyFrom (done : List Char) : Bytes → List Char
  | [] => done.reverse
  | b :: bs => decodeLossyFrom ((readChar b bs).1.getD '\uFFFD' :: done) (readChar b bs).2
termination_by bs => bs.length
decreasing_by exact Nat.lt_succ_of_le (readChar_length_le b bs)

def decodeLossy (bs : Bytes) : String :=
  String.ofList (decodeLossyFrom [] bs)

theorem decodeFrom_cons (done : List Char) (b : UInt8) (bs : Bytes) :
    decodeFrom done (b :: bs) =
      match readChar b bs with
      | (some c, rest) => decodeFrom (c :: done) rest
      | (none, _) => none := by
  rw [decodeFrom]
  split <;> simp_all

theorem decodeFrom_eq (done : List Char) (bs : Bytes) :
    decodeFrom done bs = (decodeFrom [] bs).map (done.reverse ++ ·) := by
  induction h : bs.length using Nat.strongRecOn generalizing done bs with
  | ind n ih =>
    cases bs with
    | nil => simp [decodeFrom]
    | cons b bs =>
      rw [decodeFrom_cons, decodeFrom_cons]
      have hlen := readChar_length_le b bs
      simp only [List.length_cons] at h
      split
      · next c rest hr =>
        rw [hr] at hlen
        rw [ih rest.length (by simp at hlen; omega) (c :: done) rest rfl,
          ih rest.length (by simp at hlen; omega) [c] rest rfl]
        cases decodeFrom [] rest <;> simp
      · rfl

/-! ### The forms of a character -/

variable {c : Char}

theorem encodeChar_ascii (h : c.toNat < 0x80) : encodeChar c = [UInt8.ofNat c.toNat] := by
  simp only [encodeChar]
  rw [if_pos h]

theorem encodeChar_two (hlow : ¬ c.toNat < 0x80) (hhigh : c.toNat < 0x800) :
    encodeChar c = [UInt8.ofNat (0xC0 + c.toNat / 64), UInt8.ofNat (0x80 + c.toNat % 64)] := by
  simp only [encodeChar]
  rw [if_neg hlow, if_pos hhigh]

theorem encodeChar_three (hlow : ¬ c.toNat < 0x800) (hhigh : c.toNat < 0x10000) :
    encodeChar c = [UInt8.ofNat (0xE0 + c.toNat / 4096), UInt8.ofNat (0x80 + c.toNat / 64 % 64),
      UInt8.ofNat (0x80 + c.toNat % 64)] := by
  simp only [encodeChar]
  rw [if_neg (by omega), if_neg hlow, if_pos hhigh]

theorem encodeChar_four (hlow : ¬ c.toNat < 0x10000) :
    encodeChar c = [UInt8.ofNat (0xF0 + c.toNat / 262144),
      UInt8.ofNat (0x80 + c.toNat / 4096 % 64), UInt8.ofNat (0x80 + c.toNat / 64 % 64),
      UInt8.ofNat (0x80 + c.toNat % 64)] := by
  simp only [encodeChar]
  rw [if_neg (by omega), if_neg (by omega), if_neg hlow]

/-! ### An encoded character read back -/

theorem lead?_two {n : Nat} (hlow : 0x80 ≤ n) (hhigh : n < 0x800) :
    lead? (UInt8.ofNat (0xC0 + n / 64)) = some ⟨n / 64, 0x80, 0xBF, 0⟩ := by
  have hbyte : (UInt8.ofNat (0xC0 + n / 64)).toNat = 0xC0 + n / 64 := by
    rw [UInt8.toNat_ofNat']
    omega
  simp only [lead?, hbyte]
  rw [if_neg (by omega), if_pos (by omega), Nat.add_sub_cancel_left]

/-- The byte after the lead byte is neither that of a shorter form nor that of a surrogate. -/
theorem exists_lead?_three {n : Nat} (hlow : 0x800 ≤ n) (hhigh : n < 0x10000)
    (hvalid : n < 0xD800 ∨ 0xDFFF < n) :
    ∃ low high, lead? (UInt8.ofNat (0xE0 + n / 4096)) = some ⟨n / 4096, low, high, 1⟩ ∧
      low ≤ 0x80 + n / 64 % 64 ∧ 0x80 + n / 64 % 64 ≤ high := by
  have hbyte : (UInt8.ofNat (0xE0 + n / 4096)).toNat = 0xE0 + n / 4096 := by
    rw [UInt8.toNat_ofNat']
    omega
  simp only [lead?, hbyte]
  rw [if_neg (by omega), if_neg (by omega)]
  by_cases hfirst : n / 4096 = 0
  · rw [if_pos (by omega), hfirst]
    exact ⟨_, _, rfl, by omega, by omega⟩
  · rw [if_neg (by omega)]
    by_cases hsurrogates : n / 4096 = 13
    · rw [if_pos (by omega), hsurrogates]
      exact ⟨_, _, rfl, by omega, by omega⟩
    · rw [if_neg (by omega), if_pos (by omega), Nat.add_sub_cancel_left]
      exact ⟨_, _, rfl, by omega, by omega⟩

/-- The byte after the lead byte is neither that of a shorter form nor beyond the last code point. -/
theorem exists_lead?_four {n : Nat} (hlow : 0x10000 ≤ n) (hhigh : n < 0x110000) :
    ∃ low high, lead? (UInt8.ofNat (0xF0 + n / 262144)) = some ⟨n / 262144, low, high, 2⟩ ∧
      low ≤ 0x80 + n / 4096 % 64 ∧ 0x80 + n / 4096 % 64 ≤ high := by
  have hbyte : (UInt8.ofNat (0xF0 + n / 262144)).toNat = 0xF0 + n / 262144 := by
    rw [UInt8.toNat_ofNat']
    omega
  simp only [lead?, hbyte]
  rw [if_neg (by omega), if_neg (by omega), if_neg (by omega), if_neg (by omega),
    if_neg (by omega)]
  by_cases hfirst : n / 262144 = 0
  · rw [if_pos (by omega), hfirst]
    exact ⟨_, _, rfl, by omega, by omega⟩
  · rw [if_neg (by omega)]
    by_cases hlast : n / 262144 = 4
    · rw [if_neg (by omega), if_pos (by omega), hlast]
      exact ⟨_, _, rfl, by omega, by omega⟩
    · rw [if_pos (by omega), Nat.add_sub_cancel_left]
      exact ⟨_, _, rfl, by omega, by omega⟩

theorem le_of_lead? {b : UInt8} {l : Lead} (h : lead? b = some l) : 0xC2 ≤ b.toNat := by
  rw [lead?] at h
  split at h
  · cases h
  · omega

theorem readChar_of_lt {b : UInt8} (h : b.toNat < 0x80) (bs : Bytes) :
    readChar b bs = (some (Char.ofNat b.toNat), bs) := by
  unfold readChar
  rw [if_pos h]

theorem toNat_ofNat_ascii (hc : c.toNat < 128) :
    (UInt8.ofNat c.toNat).toNat = c.toNat := by
  rw [UInt8.toNat_ofNat']
  omega

theorem toNat_continuation {x : Nat} (hx : x < 64) : (UInt8.ofNat (0x80 + x)).toNat = 0x80 + x := by
  rw [UInt8.toNat_ofNat']
  omega

theorem readChar_of_lead {b : UInt8} {l : Lead} {x : Nat} (hlead : lead? b = some l)
    (hx : x < 64) (hlow : l.low ≤ 0x80 + x) (hhigh : 0x80 + x ≤ l.high) (rest : Bytes) :
    readChar b (UInt8.ofNat (0x80 + x) :: rest) = readTail l.more (l.bits * 64 + x) rest := by
  have hb := le_of_lead? hlead
  unfold readChar
  rw [if_neg (by omega)]
  simp only [hlead, toNat_continuation hx]
  rw [if_pos ⟨hlow, hhigh⟩, Nat.add_sub_cancel_left]

theorem readTail_byte {x : Nat} (hx : x < 64) (k v : Nat) (rest : Bytes) :
    readTail (k + 1) v (UInt8.ofNat (0x80 + x) :: rest) = readTail k (v * 64 + x) rest := by
  rw [readTail, toNat_continuation hx, if_pos (by omega), Nat.add_sub_cancel_left]

/-- Reading an encoded character gives it back, whatever follows. -/
theorem readChar_encodeChar (c : Char) (rest : Bytes) :
    ∃ b bs, encodeChar c ++ rest = b :: bs ∧ readChar b bs = (some c, rest) := by
  have hvalid : c.toNat < 0xD800 ∨ (0xDFFF < c.toNat ∧ c.toNat < 0x110000) := c.valid
  have hmod : ∀ m, m % 64 < 64 := fun m => Nat.mod_lt m (by decide)
  by_cases hone : c.toNat < 0x80
  · have hbyte := toNat_ofNat_ascii hone
    refine ⟨_, rest, by rw [encodeChar_ascii hone]; rfl, ?_⟩
    rw [readChar_of_lt (by omega), hbyte, Char.ofNat_toNat]
  by_cases htwo : c.toNat < 0x800
  · have hvalue : c.toNat / 64 * 64 + c.toNat % 64 = c.toNat := by omega
    have hlead := lead?_two (Nat.le_of_not_lt hone) htwo
    have hhigh : 0x80 + c.toNat % 64 ≤ 0xBF := by omega
    rw [encodeChar_two hone htwo]
    refine ⟨_, _, rfl, ?_⟩
    rw [List.append_eq, List.cons_append, List.nil_append,
      readChar_of_lead hlead (hmod _) (Nat.le_add_right _ _) hhigh, readTail, hvalue,
      Char.ofNat_toNat]
  by_cases hthree : c.toNat < 0x10000
  · have hvalue : (c.toNat / 4096 * 64 + c.toNat / 64 % 64) * 64 + c.toNat % 64 = c.toNat := by
      omega
    obtain ⟨low, high, hlead, hlow, hhigh⟩ :=
      exists_lead?_three (Nat.le_of_not_lt htwo) hthree (hvalid.imp_right And.left)
    rw [encodeChar_three htwo hthree]
    refine ⟨_, _, rfl, ?_⟩
    rw [List.append_eq, List.cons_append, List.cons_append, List.nil_append,
      readChar_of_lead hlead (hmod _) hlow hhigh, readTail_byte (hmod _), readTail, hvalue,
      Char.ofNat_toNat]
  · have hvalue : ((c.toNat / 262144 * 64 + c.toNat / 4096 % 64) * 64 + c.toNat / 64 % 64) * 64 +
        c.toNat % 64 = c.toNat := by omega
    obtain ⟨low, high, hlead, hlow, hhigh⟩ :=
      exists_lead?_four (Nat.le_of_not_lt hthree) (by omega)
    rw [encodeChar_four hthree]
    refine ⟨_, _, rfl, ?_⟩
    rw [List.append_eq, List.cons_append, List.cons_append, List.cons_append, List.nil_append,
      readChar_of_lead hlead (hmod _) hlow hhigh, readTail_byte (hmod _), readTail_byte (hmod _),
      readTail, hvalue, Char.ofNat_toNat]

theorem decodeFrom_encodeChars (done cs : List Char) :
    decodeFrom done (encodeChars cs) = some (done.reverse ++ cs) := by
  induction cs generalizing done with
  | nil => simp [encodeChars, decodeFrom]
  | cons c cs ih =>
    obtain ⟨b, bs, he, hr⟩ := readChar_encodeChar c (encodeChars cs)
    have : encodeChars (c :: cs) = b :: bs := by simpa [encodeChars] using he
    rw [this, decodeFrom_cons, hr]
    simpa using ih (c :: done)

@[simp] theorem decode?_encode (s : String) : decode? (encode s) = some s := by
  simp [decode?, encode, decodeFrom_encodeChars]

theorem lead?_cases {b : UInt8} {l : Lead} (h : lead? b = some l) :
    (l.more = 0 ∧ b.toNat = 0xC0 + l.bits ∧ 2 ≤ l.bits ∧ l.bits < 32 ∧ 0x80 ≤ l.low ∧
      l.high ≤ 0xBF) ∨
    (l.more = 1 ∧ b.toNat = 0xE0 + l.bits ∧ l.bits < 16 ∧ 0x80 ≤ l.low ∧ l.high ≤ 0xBF ∧
      (l.bits = 0 → 0xA0 ≤ l.low) ∧ (l.bits = 13 → l.high ≤ 0x9F)) ∨
    (l.more = 2 ∧ b.toNat = 0xF0 + l.bits ∧ l.bits ≤ 4 ∧ 0x80 ≤ l.low ∧ l.high ≤ 0xBF ∧
      (l.bits = 0 → 0x90 ≤ l.low) ∧ (l.bits = 4 → l.high ≤ 0x8F)) := by
  simp only [lead?] at h
  split at h
  · simp at h
  split at h
  · obtain rfl := Option.some.inj h; left; dsimp only; omega
  split at h
  · obtain rfl := Option.some.inj h; right; left; dsimp only; omega
  split at h
  · obtain rfl := Option.some.inj h; right; left; dsimp only; omega
  split at h
  · obtain rfl := Option.some.inj h; right; left; dsimp only; omega
  split at h
  · obtain rfl := Option.some.inj h; right; right; dsimp only; omega
  split at h
  · obtain rfl := Option.some.inj h; right; right; dsimp only; omega
  split at h
  · obtain rfl := Option.some.inj h; right; right; dsimp only; omega
  · simp at h

theorem toNat_charOfNat {n : Nat} (h : n < 0xD800 ∨ (0xDFFF < n ∧ n < 0x110000)) :
    (Char.ofNat n).toNat = n := by
  have hv : n.isValidChar := h
  rw [Char.ofNat]
  rw [dif_pos hv]
  rfl

theorem ofNat_of_eq_toNat {n : Nat} {b : UInt8} (h : n = b.toNat) : UInt8.ofNat n = b := by
  rw [h, UInt8.ofNat_toNat]

theorem readTail_succ {k v : Nat} {bs rest : Bytes} {c : Char}
    (h : readTail (k + 1) v bs = (some c, rest)) :
    ∃ b bs', bs = b :: bs' ∧ 0x80 ≤ b.toNat ∧ b.toNat ≤ 0xBF ∧
      readTail k (v * 64 + (b.toNat - 0x80)) bs' = (some c, rest) := by
  cases bs with
  | nil => simp [readTail] at h
  | cons b bs =>
    rw [readTail] at h
    split at h
    · next hb => exact ⟨b, bs, rfl, hb.1, hb.2, h⟩
    · simp at h

theorem encodeChar_of_readChar {b : UInt8} {bs rest : Bytes} {c : Char}
    (h : readChar b bs = (some c, rest)) : encodeChar c ++ rest = b :: bs := by
  unfold readChar at h
  split at h
  · next hb =>
    simp only [Prod.mk.injEq, Option.some.injEq] at h
    obtain ⟨rfl, rfl⟩ := h
    have hn : (Char.ofNat b.toNat).toNat = b.toNat := toNat_charOfNat (by omega)
    rw [encodeChar_ascii (by omega), ofNat_of_eq_toNat hn]
    rfl
  · split at h
    · next l b' bs' hl =>
      split at h
      · next hr =>
        rcases lead?_cases hl with ⟨hm, hb, h1, h2, h3, h4⟩ | ⟨hm, hb, h1, h2, h3, h4, h5⟩ |
          ⟨hm, hb, h1, h2, h3, h4, h5⟩
        · rw [hm] at h
          simp only [readTail, Prod.mk.injEq, Option.some.injEq] at h
          obtain ⟨rfl, rfl⟩ := h
          have hn := toNat_charOfNat (n := l.bits * 64 + (b'.toNat - 0x80)) (by omega)
          rw [encodeChar_two (by omega) (by omega), ofNat_of_eq_toNat (b := b) (by omega),
            ofNat_of_eq_toNat (b := b') (by omega)]
          rfl
        · rw [hm] at h
          obtain ⟨b2, bs2, rfl, hlo, hhi, h⟩ := readTail_succ h
          simp only [readTail, Prod.mk.injEq, Option.some.injEq] at h
          obtain ⟨rfl, rfl⟩ := h
          have hn := toNat_charOfNat
            (n := (l.bits * 64 + (b'.toNat - 0x80)) * 64 + (b2.toNat - 0x80)) (by omega)
          rw [encodeChar_three (by omega) (by omega), ofNat_of_eq_toNat (b := b) (by omega),
            ofNat_of_eq_toNat (b := b') (by omega), ofNat_of_eq_toNat (b := b2) (by omega)]
          rfl
        · rw [hm] at h
          obtain ⟨b2, bs2, rfl, hlo, hhi, h⟩ := readTail_succ h
          obtain ⟨b3, bs3, rfl, hlo', hhi', h⟩ := readTail_succ h
          simp only [readTail, Prod.mk.injEq, Option.some.injEq] at h
          obtain ⟨rfl, rfl⟩ := h
          have hn := toNat_charOfNat
            (n := ((l.bits * 64 + (b'.toNat - 0x80)) * 64 + (b2.toNat - 0x80)) * 64 +
              (b3.toNat - 0x80)) (by omega)
          rw [encodeChar_four (by omega), ofNat_of_eq_toNat (b := b) (by omega),
            ofNat_of_eq_toNat (b := b') (by omega), ofNat_of_eq_toNat (b := b2) (by omega),
            ofNat_of_eq_toNat (b := b3) (by omega)]
          rfl
      · simp at h
    · simp at h

theorem encodeChars_of_decodeFrom {bs : Bytes} {cs : List Char}
    (h : decodeFrom [] bs = some cs) : encodeChars cs = bs := by
  induction hl : bs.length using Nat.strongRecOn generalizing bs cs with
  | ind n ih =>
    cases bs with
    | nil =>
      simp only [decodeFrom, List.reverse_nil, Option.some.injEq] at h
      subst h
      rfl
    | cons b bs =>
      rw [decodeFrom_cons] at h
      have hlen := readChar_length_le b bs
      split at h
      · next c rest hr =>
        rw [hr] at hlen
        rw [decodeFrom_eq, Option.map_eq_some_iff] at h
        obtain ⟨more, hm, rfl⟩ := h
        simp only [List.length_cons] at hl
        have hrest := ih rest.length (by simp at hlen; omega) hm rfl
        rw [← encodeChar_of_readChar hr, ← hrest]
        simp [encodeChars]
      · simp at h

theorem encode_of_decode? {bs : Bytes} {s : String} (h : decode? bs = some s) : encode s = bs := by
  rw [decode?] at h
  rw [Option.map_eq_some_iff] at h
  obtain ⟨cs, hcs, rfl⟩ := h
  simpa [encode] using encodeChars_of_decodeFrom hcs

/-- Reading accepts exactly what the encoding produces. -/
theorem decode?_eq_some_iff {bs : Bytes} {s : String} : decode? bs = some s ↔ encode s = bs :=
  ⟨encode_of_decode?, fun h => h ▸ decode?_encode s⟩

end WireBench.Utf8
