import WireBench.Proofs.Segmentation

/-!
# Dashes before the name of an option

An option is spelled by its name or an alias behind one dash or behind pairs of dashes, of which
there may be more than one. Whatever else starts with a dash is refused as it was spelled.
-/

namespace WireBench

def OptionRule.names (rule : OptionRule) : List String :=
  rule.name :: rule.aliases

namespace CommandLine

/-- Whether something is the name or an alias of an option. -/
def IsKnown (rules : List OptionRule) (key : String) : Prop :=
  ∃ rule ∈ rules, key ∈ rule.names

def dashes (n : Nat) : String :=
  String.ofList (List.replicate n '-')

/-- Whether an argument spells an option that is called so: with one dash before the name, with two,
or with more pairs than one. -/
inductive Spells (key : String) : String → Prop where
  | one : Spells key ("-" ++ key)
  | two : Spells key ("--" ++ key)
  | more (pairs : Nat) : Spells key (dashes (2 * pairs + 4) ++ key)

variable {rules : List OptionRule} {rule : OptionRule} {key arg : String} {cs : List Char}
  {front : List String} {segments : List Segment}

theorem isSpelled_iff : rule.isSpelled key = true ↔ key ∈ rule.names := by
  rw [OptionRule.isSpelled, OptionRule.names, Bool.or_eq_true, beq_iff_eq, List.contains_iff_mem,
    List.mem_cons, eq_comm]

theorem isDashed_iff : isDashed arg = true ↔ ∃ cs, arg.toList = '-' :: cs := by
  rw [isDashed, beq_iff_eq, List.head?_eq_some_iff]

/-! ### Dashes, character by character -/

theorem toList_one (key : String) : ("-" ++ key).toList = '-' :: key.toList :=
  String.toList_append

theorem toList_two (key : String) :
    ("--" ++ key).toList = List.replicate (2 * (0 + 1)) '-' ++ key.toList :=
  String.toList_append

theorem toList_more (pairs : Nat) (key : String) :
    (dashes (2 * pairs + 4) ++ key).toList =
      List.replicate (2 * (pairs + 1 + 1)) '-' ++ key.toList := by
  rw [String.toList_append, dashes, String.toList_ofList]
  rfl

theorem spells_iff_toList :
    Spells key arg ↔ arg.toList = '-' :: key.toList ∨
      ∃ n, arg.toList = List.replicate (2 * (n + 1)) '-' ++ key.toList := by
  constructor
  · intro h
    cases h with
    | one => exact .inl (toList_one key)
    | two => exact .inr ⟨0, toList_two key⟩
    | more pairs => exact .inr ⟨pairs + 1, toList_more pairs key⟩
  · rintro (h | ⟨_ | pairs, h⟩)
    · rw [← toList_one, String.toList_inj] at h
      exact h ▸ .one
    · rw [← toList_two, String.toList_inj] at h
      exact h ▸ .two
    · rw [← toList_more, String.toList_inj] at h
      exact h ▸ .more pairs

/-! ### What is behind the dashes -/

theorem replicate_pair (n : Nat) (cs : List Char) :
    List.replicate (2 * (n + 1)) '-' ++ cs = '-' :: '-' :: (List.replicate (2 * n) '-' ++ cs) :=
  rfl

theorem dropDashPairs_of_ne (h : ∀ cs', cs ≠ '-' :: '-' :: cs') : dropDashPairs cs = cs := by
  rw [dropDashPairs]
  exact h

theorem dropDashPairs_replicate (h : ∀ cs', cs ≠ '-' :: cs') (n : Nat) :
    dropDashPairs (List.replicate (2 * n) '-' ++ cs) = cs := by
  induction n with
  | zero => exact dropDashPairs_of_ne fun cs' => h ('-' :: cs')
  | succ n ih => rw [replicate_pair, dropDashPairs, ih]

theorem exists_dropDashPairs (cs : List Char) :
    ∃ n, cs = List.replicate (2 * n) '-' ++ dropDashPairs cs := by
  induction cs using dropDashPairs.induct with
  | case1 cs ih =>
    obtain ⟨n, hn⟩ := ih
    refine ⟨n + 1, ?_⟩
    rw [replicate_pair, dropDashPairs, ← hn]
  | case2 cs hcs => exact ⟨0, (dropDashPairs_of_ne hcs).symm⟩

theorem bareKey_of_pair (h : arg.toList = '-' :: '-' :: cs) :
    bareKey arg = String.ofList (dropDashPairs cs) := by
  simp only [bareKey, h]

theorem bareKey_of_one (h : arg.toList = '-' :: cs) (hcs : ∀ cs', cs ≠ '-' :: cs') :
    bareKey arg = String.ofList cs := by
  rw [bareKey, h]
  split
  next cs' heq => exact absurd (List.cons.inj heq).2 (hcs cs')
  next cs' _ heq => rw [(List.cons.inj heq).2]
  next _ hne => exact absurd rfl (hne cs)

theorem Spells.bareKey_eq (h : Spells key arg) (hkey : isDashed key = false) :
    bareKey arg = key := by
  have hhead : ∀ cs', key.toList ≠ '-' :: cs' := by
    intro cs' hcs
    rw [isDashed_iff.2 ⟨cs', hcs⟩] at hkey
    cases hkey
  rcases spells_iff_toList.1 h with harg | ⟨n, harg⟩
  · rw [bareKey_of_one harg hhead, String.ofList_toList]
  · rw [replicate_pair] at harg
    rw [bareKey_of_pair harg, dropDashPairs_replicate hhead, String.ofList_toList]

theorem spells_bareKey (h : isDashed arg = true) : Spells (bareKey arg) arg := by
  obtain ⟨cs, hcs⟩ := isDashed_iff.1 h
  rw [spells_iff_toList]
  by_cases hpair : ∃ cs', cs = '-' :: cs'
  · right
    obtain ⟨cs', rfl⟩ := hpair
    obtain ⟨n, hn⟩ := exists_dropDashPairs cs'
    refine ⟨n, ?_⟩
    rw [bareKey_of_pair hcs, String.toList_ofList, replicate_pair, ← hn, hcs]
  · left
    rw [bareKey_of_one hcs fun cs' he => hpair ⟨cs', he⟩, String.toList_ofList, hcs]

/-! ### Which arguments are options -/

/-- No option is called by nothing, or by what starts with a dash. -/
def AreNamed (rules : List OptionRule) : Prop :=
  ∀ rule ∈ rules, ∀ key ∈ rule.names, key ≠ "" ∧ isDashed key = false

theorem AreNamed.of_isKnown (h : AreNamed rules) (hkey : IsKnown rules key) :
    key ≠ "" ∧ isDashed key = false := by
  obtain ⟨rule, hrule, hname⟩ := hkey
  exact h rule hrule key hname

theorem Spells.isDashed_eq (h : Spells key arg) : isDashed arg = true := by
  rw [isDashed_iff]
  rcases spells_iff_toList.1 h with harg | ⟨n, harg⟩
  · exact ⟨_, harg⟩
  · exact ⟨_, harg.trans (replicate_pair n key.toList)⟩

/-- Whatever spells a name is an option. -/
theorem AreNamed.exists_isOption (h : AreNamed rules) (hkey : IsKnown rules key)
    (hspells : Spells key arg) : ∃ rule, IsOption rules arg rule ∧ key ∈ rule.names := by
  obtain ⟨hne, hdash⟩ := h.of_isKnown hkey
  obtain ⟨rule, hrule, hname⟩ := hkey
  have hbare := hspells.bareKey_eq hdash
  have hfound : (rules.find? (·.isSpelled key)).isSome :=
    List.find?_isSome.2 ⟨rule, hrule, isSpelled_iff.2 hname⟩
  obtain ⟨found, hfind⟩ := Option.isSome_iff_exists.1 hfound
  have hspelled := @List.find?_some _ (OptionRule.isSpelled · key) _ _ hfind
  refine ⟨found, ⟨hspells.isDashed_eq, ?_, ?_, ?_⟩, isSpelled_iff.1 hspelled⟩
  · rintro rfl
    exact hne hbare.symm
  · rintro rfl
    exact hne hbare.symm
  · have hempty : ¬ key.isEmpty = true := by simpa using hne
    rw [resolve, hbare, if_neg hempty, hfind]

theorem exists_spells_of_resolve (hdash : isDashed arg = true)
    (h : resolve rules arg = some rule) : ∃ key, IsKnown rules key ∧ Spells key arg := by
  rw [resolve] at h
  split at h
  · cases h
  · have hspelled := @List.find?_some _ (OptionRule.isSpelled · (bareKey arg)) _ _ h
    have hrule := List.mem_of_find?_eq_some h
    exact ⟨bareKey arg, ⟨rule, hrule, isSpelled_iff.1 hspelled⟩, spells_bareKey hdash⟩

theorem AreNamed.resolve_eq_none_iff (h : AreNamed rules) (hdash : isDashed arg = true) :
    resolve rules arg = none ↔ ¬ ∃ key, IsKnown rules key ∧ Spells key arg := by
  constructor
  · rintro hnone ⟨key, hkey, hspells⟩
    obtain ⟨rule, hoption, -⟩ := h.exists_isOption hkey hspells
    exact nomatch hnone.symm.trans hoption.2.2.2
  · intro hspells
    by_contra hsome
    obtain ⟨rule, hrule⟩ := Option.ne_none_iff_exists'.1 hsome
    exact hspells (exists_spells_of_resolve hdash hrule)

/-- Every argument of some segments that starts with a dash and is more than that is an option. -/
theorem Segmented.exists_isOption (h : Segmented rules front segments) (harg : arg ∈ front)
    (hdash : isDashed arg = true) (hsingle : arg ≠ "-") : ∃ rule, IsOption rules arg rule := by
  have hvalue : ∀ {value : String}, isDashed value = false → arg ≠ value := by
    rintro _ hvalue rfl
    rw [hdash] at hvalue
    cases hvalue
  induction h with
  | done => cases harg
  | positional hpositional _ ih =>
    rcases List.mem_cons.1 harg with rfl | harg
    · exact absurd hpositional (not_isPositional hdash hsingle)
    · exact ih harg
  | single hoption _ hplain _ ih =>
    rcases List.mem_cons.1 harg with rfl | harg
    · exact ⟨_, hoption⟩
    · exact ih (List.mem_of_ne_of_mem (hvalue hplain) harg)
  | many hoption _ hplain _ _ ih =>
    rcases List.mem_cons.1 harg with rfl | harg
    · exact ⟨_, hoption⟩
    · rcases List.mem_append.1 harg with harg | harg
      · exact absurd rfl (hvalue (hplain _ harg))
      · exact ih harg

/-- A name behind one dash or two is one that is spelled with fewer dashes than four. -/
theorem AreNamed.one_or_two_iff (h : AreNamed rules)
    (hspelled : ∃ key, IsKnown rules key ∧ Spells key arg) :
    (∃ key, IsKnown rules key ∧ (arg = "-" ++ key ∨ arg = "--" ++ key)) ↔
      ¬ List.replicate 4 '-' <+: arg.toList := by
  constructor
  · rintro ⟨key, hkey, harg⟩ ⟨cs, hcs⟩
    have hdash := (h.of_isKnown hkey).2
    suffices hkey' : isDashed key = true by
      rw [hdash] at hkey'
      cases hkey'
    rw [isDashed_iff]
    rcases harg with rfl | rfl
    · rw [toList_one] at hcs
      exact ⟨_, (List.cons.inj hcs).2.symm⟩
    · rw [toList_two] at hcs
      exact ⟨_, (List.cons.inj (List.cons.inj hcs).2).2.symm⟩
  · intro hfour
    obtain ⟨key, hkey, hspells⟩ := hspelled
    cases hspells with
    | one => exact ⟨key, hkey, .inl rfl⟩
    | two => exact ⟨key, hkey, .inr rfl⟩
    | more pairs =>
      refine absurd ?_ hfour
      rw [toList_more]
      exact ⟨List.replicate (2 * pairs) '-' ++ key.toList, rfl⟩

/-- Where no option is called by nothing or by what starts with a dash, whatever starts with a dash
in an argument list that is understood, before the end of its options, spells the name of an option
behind one dash or behind pairs of dashes, and whatever does so is an option. It is behind one dash
or two everywhere exactly if nothing there starts with four dashes. A list is refused for an unknown
option exactly if segments lead up to what starts with a dash and does not spell a name so, and it is
refused for that as it was spelled. -/
theorem dashes_before_names {rules : List OptionRule} (hnamed : AreNamed rules)
    (args : List String) :
    (∀ inv, parse rules args = .ok inv →
        (∀ arg ∈ (cutAtEnd args).1, isDashed arg = true → arg ≠ "-" →
          ∃ key, IsKnown rules key ∧ Spells key arg) ∧
        ((∀ arg ∈ (cutAtEnd args).1, isDashed arg = true → arg ≠ "-" →
            ∃ key, IsKnown rules key ∧ (arg = "-" ++ key ∨ arg = "--" ++ key)) ↔
          ∀ arg ∈ (cutAtEnd args).1, ¬ List.replicate 4 '-' <+: arg.toList)) ∧
      (∀ key arg, IsKnown rules key → Spells key arg →
        ∃ rule, IsOption rules arg rule ∧ key ∈ rule.names) ∧
      ∀ arg, parse rules args = .error (.unknownOption arg) ↔
        ∃ front segments rest, args = front ++ arg :: rest ∧ Segmented rules front segments ∧
          isDashed arg = true ∧ arg ≠ "-" ∧ arg ≠ "--" ∧
            ¬ ∃ key, IsKnown rules key ∧ Spells key arg := by
  refine ⟨?_, ?_, fun arg => ⟨?_, ?_⟩⟩
  · intro inv hinv
    obtain ⟨segments, hsegments⟩ := parse_ok_iff.1 ⟨inv, hinv⟩
    have hspelled : ∀ arg ∈ (cutAtEnd args).1, isDashed arg = true → arg ≠ "-" →
        ∃ key, IsKnown rules key ∧ Spells key arg := by
      intro arg harg hdash hsingle
      obtain ⟨rule, hoption⟩ := hsegments.exists_isOption harg hdash hsingle
      exact exists_spells_of_resolve hdash hoption.2.2.2
    refine ⟨hspelled, fun h arg harg hfour => ?_, fun h arg harg hdash hsingle => ?_⟩
    · obtain ⟨cs, hcs⟩ := hfour
      have hdash : isDashed arg = true := isDashed_iff.2 ⟨_, hcs.symm⟩
      have hsingle : arg ≠ "-" := by
        rintro rfl
        cases hcs
      have hone := h arg harg hdash hsingle
      exact (hnamed.one_or_two_iff (hspelled arg harg hdash hsingle)).1 hone ⟨cs, hcs⟩
    · exact (hnamed.one_or_two_iff (hspelled arg harg hdash hsingle)).2 (h arg harg)
  · exact fun key arg hkey hspells => hnamed.exists_isOption hkey hspells
  · intro herror
    obtain ⟨front, segments, rest, rfl, hfront, hrefused⟩ := parse_error_iff.1 herror
    cases hrefused with
    | @unknown _ rest hdash hsingle hend hnone =>
      exact ⟨front, segments, rest, rfl, hfront, hdash, hsingle, hend,
        (hnamed.resolve_eq_none_iff hdash).1 hnone⟩
  · rintro ⟨front, segments, rest, rfl, hfront, hdash, hsingle, hend, hspells⟩
    have hnone := (hnamed.resolve_eq_none_iff hdash).2 hspells
    exact parse_of_refused hfront (.unknown hdash hsingle hend hnone)

theorem areNamed_rules : AreNamed Settings.rules := by
  unfold AreNamed
  decide

/-- A dash alone and an alias are understood, three dashes are refused as they were spelled, and four
dashes are as good as two. -/
theorem dashes_before_ports :
    AreNamed Settings.rules ∧
      (∃ inv, parse Settings.rules ["--files", "-", "-p", "1"] = .ok inv) ∧
      (∃ key, IsKnown Settings.rules key ∧ Spells key "-p") ∧
      parse Settings.rules ["x", "---port", "1"] = .error (.unknownOption "---port") ∧
      ∃ rule, IsOption Settings.rules "----port" rule ∧ "port" ∈ rule.names := by
  have hfiles : Segmented Settings.rules (cutAtEnd ["--files", "-", "-p", "1"]).1
      [.many "--files" ⟨"files", ["f"], true⟩ [], .positional "-",
        .single "-p" ⟨"port", ["p"], false⟩ "1"] := by
    refine @Segmented.many _ _ _ [] _ _ (by decide) rfl (by decide) (by decide) ?_
    refine .positional (by decide) ?_
    exact .single (by decide) rfl (by decide) .done
  obtain ⟨inv, hinv⟩ := parse_ok_iff.2 ⟨_, hfiles⟩
  obtain ⟨hall, hspelled, -⟩ := dashes_before_names areNamed_rules ["--files", "-", "-p", "1"]
  obtain ⟨-, -, hunknown⟩ := dashes_before_names areNamed_rules ["x", "---port", "1"]
  have hthree : ¬ ∃ key, IsKnown Settings.rules key ∧ Spells key "---port" :=
    (areNamed_rules.resolve_eq_none_iff (by decide)).1 (by decide)
  have hport : IsKnown Settings.rules "port" :=
    ⟨⟨"port", ["p"], false⟩, by decide, by decide⟩
  have hfour : Spells "port" "----port" :=
    (by decide : dashes (2 * 0 + 4) ++ "port" = "----port") ▸ Spells.more 0
  refine ⟨areNamed_rules, ⟨inv, hinv⟩, ?_, ?_, hspelled "port" "----port" hport hfour⟩
  · exact (hall inv hinv).1 "-p" (by decide) (by decide) (by decide)
  · exact (hunknown "---port").2 ⟨["x"], [.positional "x"], ["1"], rfl,
      .positional (by decide) .done, by decide, by decide, by decide, hthree⟩

/-- It is not so that every option that is understood is a name behind one dash or two. -/
theorem not_forall_one_or_two_dashes :
    ¬ ∀ rules, AreNamed rules → ∀ args inv, parse rules args = .ok inv →
      ∀ arg ∈ (cutAtEnd args).1, isDashed arg = true → arg ≠ "-" →
        ∃ key, IsKnown rules key ∧ (arg = "-" ++ key ∨ arg = "--" ++ key) := by
  intro h
  have hsegments : Segmented Settings.rules (cutAtEnd ["----port", "1"]).1
      [.single "----port" ⟨"port", ["p"], false⟩ "1"] :=
    .single (by decide) rfl (by decide) .done
  obtain ⟨inv, hinv⟩ := parse_ok_iff.2 ⟨_, hsegments⟩
  obtain ⟨key, ⟨rule, hrule, hname⟩, hkey⟩ :=
    h Settings.rules areNamed_rules _ inv hinv "----port" (by decide) (by decide) (by decide)
  have hnone : ∀ rule ∈ Settings.rules, ∀ key ∈ rule.names,
      ¬ ("----port" = "-" ++ key ∨ "----port" = "--" ++ key) := by decide
  exact hnone rule hrule key hname hkey

end CommandLine

end WireBench
