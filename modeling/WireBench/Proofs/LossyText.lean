import WireBench.Proofs.Occurrence
import WireBench.Proofs.Utf8Bytes

/-!
# ASCII in text read from any bytes

Where bytes are read as text with U+FFFD for what is ill-formed, an ASCII byte is read as the
character that it is, and bytes above ASCII become characters above ASCII. So a byte string and the
text that is read of it hold the same ASCII in the same places between all else.
-/

namespace WireBench.Utf8

/-- Whether two byte strings differ only in runs of bytes above ASCII, and each has such a run where
the other has one. -/
inductive SameAscii : Bytes → Bytes → Prop where
  | nil : SameAscii [] []
  | ascii {b : UInt8} {bs cs : Bytes} (hb : b.toNat < 128) (h : SameAscii bs cs) :
      SameAscii (b :: bs) (b :: cs)
  | above {run run' bs cs : Bytes} (hne : run ≠ []) (hne' : run' ≠ [])
      (habove : ∀ b ∈ run, 128 ≤ b.toNat) (habove' : ∀ b ∈ run', 128 ≤ b.toNat)
      (h : SameAscii bs cs) : SameAscii (run ++ bs) (run' ++ cs)

variable {b : UInt8} {bs cs rest : Bytes} {c : Char}

/-! ### Reading one character -/

theorem readChar_ascii (hb : b.toNat < 128) (bs : Bytes) :
    readChar b bs = (some (Char.ofNat b.toNat), bs) :=
  if_pos hb

theorem le_of_mem_encodeChar (hc : 128 ≤ c.toNat) (hb : b ∈ encodeChar c) : 128 ≤ b.toNat := by
  refine Nat.le_of_not_lt fun hlt => ?_
  have heq := toNat_eq_of_mem_encodeChar hb hlt
  omega

theorem readTail_run (k v : Nat) (bs : Bytes) :
    ∃ run, bs = run ++ (readTail k v bs).2 ∧ ∀ b ∈ run, 128 ≤ b.toNat := by
  induction k generalizing v bs with
  | zero => exact ⟨[], rfl, by simp⟩
  | succ k ih =>
    cases bs with
    | nil => exact ⟨[], rfl, by simp⟩
    | cons b bs =>
      rw [readTail]
      split
      next hb =>
        obtain ⟨run, hrun, habove⟩ := ih (v * 64 + (b.toNat - 0x80)) bs
        exact ⟨b :: run, congrArg (b :: ·) hrun, List.forall_mem_cons.2 ⟨hb.1, habove⟩⟩
      next => exact ⟨[], rfl, by simp⟩

theorem readChar_run (hb : 128 ≤ b.toNat) (bs : Bytes) :
    ∃ run, bs = run ++ (readChar b bs).2 ∧ ∀ x ∈ run, 128 ≤ x.toNat := by
  unfold readChar
  rw [if_neg (Nat.not_lt_of_le hb)]
  split
  next l b' bs' hlead =>
    split
    next hrange =>
      obtain ⟨run, hrun, habove⟩ := readTail_run l.more (l.bits * 64 + (b'.toNat - 0x80)) bs'
      have hb' : 128 ≤ b'.toNat := by
        have hcases := lead?_cases hlead
        omega
      exact ⟨b' :: run, congrArg (b' :: ·) hrun, List.forall_mem_cons.2 ⟨hb', habove⟩⟩
    next => exact ⟨[], rfl, by simp⟩
  next => exact ⟨[], rfl, by simp⟩

theorem le_readChar (hb : 128 ≤ b.toNat) (bs : Bytes) :
    128 ≤ ((readChar b bs).1.getD '\uFFFD').toNat := by
  rcases hread : readChar b bs with ⟨_ | c, rest⟩
  · exact (by decide : 128 ≤ '\uFFFD'.toNat)
  · have hencode := encodeChar_of_readChar hread
    refine Nat.le_of_not_lt fun hc => ?_
    replace hc : c.toNat < 128 := hc
    rw [encodeChar_ascii hc, List.singleton_append] at hencode
    have hbyte := toNat_ofNat_ascii hc
    rw [(List.cons.inj hencode).1] at hbyte
    omega

/-! ### Reading all of it -/

theorem decodeLossyFrom_eq (done : List Char) (bs : Bytes) :
    decodeLossyFrom done bs = done.reverse ++ decodeLossyFrom [] bs := by
  cases bs with
  | nil => simp [decodeLossyFrom]
  | cons b bs =>
    rw [decodeLossyFrom, decodeLossyFrom, decodeLossyFrom_eq (_ :: done),
      decodeLossyFrom_eq [(readChar b bs).1.getD '\uFFFD']]
    simp
termination_by bs.length
decreasing_by all_goals exact Nat.lt_succ_of_le (readChar_length_le b bs)

theorem encode_decodeLossy_cons (b : UInt8) (bs : Bytes) :
    encode (decodeLossy (b :: bs)) =
      encodeChar ((readChar b bs).1.getD '\uFFFD') ++ encode (decodeLossy (readChar b bs).2) := by
  simp only [encode, decodeLossy, String.toList_ofList, encodeChars]
  rw [decodeLossyFrom, decodeLossyFrom_eq, List.reverse_singleton, List.singleton_append,
    List.flatMap_cons]

/-- The text that is read of any bytes holds the ASCII that these hold. -/
theorem sameAscii_decodeLossy (bs : Bytes) : SameAscii bs (encode (decodeLossy bs)) := by
  cases bs with
  | nil =>
    have hempty : encode (decodeLossy []) = [] := by
      rw [decodeLossy, decodeLossyFrom, encode, String.toList_ofList]
      rfl
    rw [hempty]
    exact .nil
  | cons b bs =>
    have hrest := sameAscii_decodeLossy (readChar b bs).2
    rw [encode_decodeLossy_cons]
    by_cases hb : b.toNat < 128
    · have hchar : (Char.ofNat b.toNat).toNat = b.toNat := toNat_charOfNat (by omega)
      rw [readChar_ascii hb] at hrest ⊢
      rw [Option.getD_some, encodeChar_ascii (by omega), hchar, UInt8.ofNat_toNat,
        List.singleton_append]
      exact .ascii hb hrest
    · obtain ⟨run, hrun, habove⟩ := readChar_run (Nat.le_of_not_lt hb) bs
      obtain ⟨lead, more, hlead, -⟩ := readChar_encodeChar ((readChar b bs).1.getD '\uFFFD') []
      rw [List.append_nil] at hlead
      have hshape : b :: bs = (b :: run) ++ (readChar b bs).2 := congrArg (b :: ·) hrun
      rw [hshape]
      refine .above (by simp) (by simp [hlead]) ?_ ?_ hrest
      · exact List.forall_mem_cons.2 ⟨Nat.le_of_not_lt hb, habove⟩
      · exact fun x hx => le_of_mem_encodeChar (le_readChar (Nat.le_of_not_lt hb) bs) hx
termination_by bs.length
decreasing_by exact Nat.lt_succ_of_le (readChar_length_le b bs)

/-! ### What depends on the ASCII alone -/

theorem SameAscii.symm (h : SameAscii bs cs) : SameAscii cs bs := by
  induction h with
  | nil => exact .nil
  | ascii hb _ ih => exact .ascii hb ih
  | above hne hne' habove habove' _ ih => exact .above hne' hne habove' habove ih

theorem SameAscii.mem (h : SameAscii bs cs) (hb : b.toNat < 128) (hmem : b ∈ bs) : b ∈ cs := by
  induction h with
  | nil => exact hmem
  | ascii _ _ ih =>
    rcases List.mem_cons.1 hmem with rfl | hmem
    · exact List.mem_cons_self ..
    · exact List.mem_cons_of_mem _ (ih hmem)
  | above _ _ habove _ _ ih =>
    rcases List.mem_append.1 hmem with hmem | hmem
    · exact absurd hb (Nat.not_lt_of_le (habove b hmem))
    · exact List.mem_append_right _ (ih hmem)

theorem SameAscii.prefix_singleton (h : SameAscii bs cs) (hb : b.toNat < 128) (hbs : [b] <+: bs) :
    [b] <+: cs := by
  cases h with
  | nil => exact hbs
  | ascii => simpa using hbs
  | @above run _ bs _ hne _ habove _ _ =>
    obtain ⟨b', run, rfl⟩ := List.exists_cons_of_ne_nil hne
    obtain rfl : b = b' := by simpa using hbs
    exact absurd hb (Nat.not_lt_of_le (habove b (List.mem_cons_self ..)))

/-- Two ASCII bytes that stand together do so also where only the ASCII is the same. -/
theorem SameAscii.pair_infix {b' : UInt8} (h : SameAscii bs cs) (hb : b.toNat < 128)
    (hb' : b'.toNat < 128) (hbs : [b, b'] <:+: bs) : [b, b'] <:+: cs := by
  induction h with
  | nil => exact hbs
  | ascii _ h ih =>
    rw [List.infix_cons_iff, List.cons_prefix_cons] at hbs ⊢
    exact hbs.imp (fun hfront => ⟨hfront.1, h.prefix_singleton hb' hfront.2⟩) ih
  | @above run run' bs cs _ _ habove _ h ih =>
    have hrun : b ∉ run := fun hmem => Nat.not_lt_of_le (habove b hmem) hb
    have hrest := ih ((Text.infix_append_iff_of_not_mem hrun bs).1 hbs)
    exact hrest.trans (List.suffix_append run' cs).isInfix

theorem mem_decodeLossy_iff (hc : c.toNat < 128) (bs : Bytes) :
    c ∈ (decodeLossy bs).toList ↔ UInt8.ofNat c.toNat ∈ bs := by
  have hb : (UInt8.ofNat c.toNat).toNat < 128 := by rwa [toNat_ofNat_ascii hc]
  have hsame := sameAscii_decodeLossy bs
  rw [← mem_encode_iff hc]
  exact ⟨hsame.symm.mem hb, hsame.mem hb⟩

end WireBench.Utf8
