import Mathlib.Data.List.Nodup
import WireBench.CommandLine.Segment
import WireBench.Settings

/-!
# Command lines as segments

An argument list is understood exactly if its arguments before the end of the options are a sequence
of segments. What is understood of it is what the segments say; a list that is refused is segments
up to the first option that is unknown or lacks its value.
-/

namespace WireBench

open WireBench.CommandLine

namespace CommandLine

/-- The argument list starts with an option that is unknown or lacks the one value it takes. -/
inductive Refused (rules : List OptionRule) : List String → UsageError → Prop where
  | unknown {arg : String} {rest : List String} :
    isDashed arg = true → arg ≠ "-" → arg ≠ "--" → resolve rules arg = none →
    Refused rules (arg :: rest) (.unknownOption arg)
  | lacking {arg : String} {rule : OptionRule} {rest : List String} :
    IsOption rules arg rule → rule.many = false → (∀ next ∈ rest.head?, isDashed next = true) →
    Refused rules (arg :: rest) (.missingValue arg)

/-- No segment starts with these arguments: there are none, they start with the end of the options,
or their first one is refused. -/
inductive Stopped (rules : List OptionRule) : List String → Prop where
  | finished : Stopped rules []
  | ended (rest : List String) : Stopped rules ("--" :: rest)
  | refused {args : List String} {error : UsageError} :
    Refused rules args error → Stopped rules args

end CommandLine

namespace Invocation

def add (inv : Invocation) : Segment → Invocation
  | .positional arg => inv.addPositionals [arg]
  | .single _ rule value => inv.assign rule.name [value]
  | .many _ rule values => inv.extend rule.name values

/-- What is understood is what some segments say, followed by further positional arguments: of an
option of many the values of all its segments, of one with a single value that of the last. -/
structure Records (inv : Invocation) (rules : List OptionRule) (segments : List Segment)
    (further : List String) : Prop where
  positionals : inv.positionals = segments.filterMap Segment.positional? ++ further
  many : ∀ rule ∈ rules, rule.many = true →
    inv.values rule.name = (segments.filterMap (Segment.values? rule.name)).flatten
  single : ∀ rule ∈ rules, rule.many = false →
    inv.values rule.name = (segments.filterMap (Segment.values? rule.name)).getLast?.getD []
  contains : ∀ name, inv.contains name = true ↔ ∃ segment ∈ segments,
    (segment.values? name).isSome

end Invocation

namespace CommandLine

variable {rules : List OptionRule} {inv : Invocation} {arg value : String} {rule : OptionRule}
  {args front rest values : List String} {segments : List Segment}

instance (arg : String) : Decidable (IsPositional arg) :=
  inferInstanceAs (Decidable (_ ∨ _))

instance (rules : List OptionRule) (arg : String) (rule : OptionRule) :
    Decidable (IsOption rules arg rule) :=
  inferInstanceAs (Decidable (_ ∧ _ ∧ _ ∧ _))

theorem isDashed_end : isDashed "--" = true := by decide

theorem not_isPositional (hdash : isDashed arg = true) (hsingle : arg ≠ "-") :
    ¬ (arg = "-" ∨ isDashed arg = false) := by
  rintro (h | h)
  · exact hsingle h
  · rw [hdash] at h
    cases h

theorem IsOption.of_not_isPositional (hend : arg ≠ "--")
    (hpositional : ¬ (arg = "-" ∨ isDashed arg = false)) (hrule : resolve rules arg = some rule) :
    IsOption rules arg rule := by
  obtain ⟨hsingle, hdash⟩ := not_or.1 hpositional
  exact ⟨(Bool.not_eq_false _).mp hdash, hsingle, hend, hrule⟩

theorem ne_end_of_not_dashed (h : isDashed arg = false) : arg ≠ "--" := by
  rintro rfl
  rw [isDashed_end] at h
  cases h

theorem IsPositional.ne_end (h : IsPositional arg) : arg ≠ "--" := by
  rcases h with rfl | h
  · decide
  · exact ne_end_of_not_dashed h

/-! ### One segment -/

theorem parseFrom_positional (h : IsPositional arg) :
    parseFrom rules inv (arg :: rest) = parseFrom rules (inv.addPositionals [arg]) rest := by
  have hpositional : arg = "-" ∨ isDashed arg = false := h
  rw [parseFrom, if_neg h.ne_end, if_pos hpositional]

theorem parseFrom_single (h : IsOption rules arg rule) (hone : rule.many = false)
    (hvalue : isDashed value = false) :
    parseFrom rules inv (arg :: value :: rest) =
      parseFrom rules (inv.assign rule.name [value]) rest := by
  obtain ⟨hdash, hsingle, hend, hrule⟩ := h
  rw [parseFrom, if_neg hend, if_neg (not_isPositional hdash hsingle), hrule]
  simp [hone, hvalue]

theorem takeWhile_values (hvalues : ∀ v ∈ values, isDashed v = false)
    (hnext : ∀ next ∈ rest.head?, isDashed next = true) :
    (values ++ rest).takeWhile (fun v => !isDashed v) = values := by
  rw [List.takeWhile_append_of_pos fun v hv => by simp [hvalues v hv]]
  cases rest with
  | nil => simp
  | cons next rest => simp [hnext next rfl]

theorem dropWhile_values (hvalues : ∀ v ∈ values, isDashed v = false)
    (hnext : ∀ next ∈ rest.head?, isDashed next = true) :
    (values ++ rest).dropWhile (fun v => !isDashed v) = rest := by
  rw [List.dropWhile_append_of_pos fun v hv => by simp [hvalues v hv]]
  cases rest with
  | nil => rfl
  | cons next rest => simp [hnext next rfl]

theorem parseFrom_many (h : IsOption rules arg rule) (hmany : rule.many = true)
    (hvalues : ∀ v ∈ values, isDashed v = false)
    (hnext : ∀ next ∈ rest.head?, isDashed next = true) :
    parseFrom rules inv (arg :: (values ++ rest)) =
      parseFrom rules (inv.extend rule.name values) rest := by
  obtain ⟨hdash, hsingle, hend, hrule⟩ := h
  rw [parseFrom, if_neg hend, if_neg (not_isPositional hdash hsingle), hrule]
  simp only [hmany, if_true, takeWhile_values hvalues hnext, dropWhile_values hvalues hnext]

theorem Refused.parseFrom_eq {error : UsageError} (h : Refused rules args error) :
    parseFrom rules inv args = .error error := by
  cases h with
  | unknown hdash hsingle hend hnone =>
    rw [parseFrom, if_neg hend, if_neg (not_isPositional hdash hsingle), hnone]
  | @lacking arg rule rest hoption hone hnext =>
    obtain ⟨hdash, hsingle, hend, hrule⟩ := hoption
    rw [parseFrom, if_neg hend, if_neg (not_isPositional hdash hsingle), hrule]
    cases rest with
    | nil => simp [hone]
    | cons next rest => simp [hone, hnext next rfl]

/-! ### A run of segments -/

theorem Refused.dashed {error : UsageError} (h : Refused rules args error) :
    ∀ next ∈ args.head?, isDashed next = true := by
  intro next hnext
  cases h with
  | unknown hdash => exact Option.some.inj hnext ▸ hdash
  | lacking hoption => exact Option.some.inj hnext ▸ hoption.1

theorem dashed_append (hfront : ∀ next ∈ front.head?, isDashed next = true)
    (hrest : ∀ next ∈ rest.head?, isDashed next = true) :
    ∀ next ∈ (front ++ rest).head?, isDashed next = true := by
  cases front with
  | nil => exact hrest
  | cons next front => exact hfront

/-- Segments are understood one after the other, whatever follows them that starts with a dash. -/
theorem Segmented.parseFrom_append (h : Segmented rules front segments)
    (hrest : ∀ next ∈ rest.head?, isDashed next = true) (inv : Invocation) :
    parseFrom rules inv (front ++ rest) =
      parseFrom rules (segments.foldl Invocation.add inv) rest := by
  induction h generalizing inv with
  | done => rfl
  | positional harg _ ih => rw [List.cons_append, parseFrom_positional harg, ih]; rfl
  | single hoption hone hvalue _ ih =>
    rw [List.cons_append, List.cons_append, parseFrom_single hoption hone hvalue, ih]
    rfl
  | @many arg rule values more segments hoption hmany hvalues hnext _ ih =>
    rw [List.cons_append, List.append_assoc,
      parseFrom_many hoption hmany hvalues (dashed_append hnext hrest), ih]
    rfl

theorem Segmented.many_dropWhile (hoption : IsOption rules arg rule) (hmany : rule.many = true)
    (hargs : args.dropWhile (fun v => !isDashed v) = front ++ rest)
    (hfront : Segmented rules front segments) :
    Segmented rules (arg :: (args.takeWhile (fun v => !isDashed v) ++ front))
      (.many arg rule (args.takeWhile fun v => !isDashed v) :: segments) := by
  refine .many hoption hmany ?_ ?_ hfront
  · intro v hv
    simpa using List.all_eq_true.1 List.all_takeWhile v hv
  · intro next hnext
    have hhead : (args.dropWhile fun v => !isDashed v).head? = some next := by
      rw [hargs, List.head?_append, hnext]
      rfl
    have hstop := List.head?_dropWhile_not (fun v => !isDashed v) args
    simpa [hhead] using hstop

/-- Every argument list is segments up to where no segment starts. -/
theorem exists_segmented (rules : List OptionRule) (args : List String) :
    ∃ front segments rest, args = front ++ rest ∧ Segmented rules front segments ∧
      Stopped rules rest := by
  induction Invocation.empty, args using parseFrom.induct rules with
  | case1 => exact ⟨[], [], [], rfl, .done, .finished⟩
  | case2 _ rest => exact ⟨[], [], _, rfl, .done, .ended rest⟩
  | case3 _ arg args hend hpositional ih =>
    obtain ⟨front, segments, rest, rfl, hfront, hrest⟩ := ih
    exact ⟨arg :: front, _, rest, rfl, .positional hpositional hfront, hrest⟩
  | case4 _ arg args hend hpositional hrule =>
    obtain ⟨hsingle, hdash⟩ := not_or.1 hpositional
    rw [Bool.not_eq_false] at hdash
    exact ⟨[], [], _, rfl, .done, .refused (.unknown hdash hsingle hend hrule)⟩
  | case5 _ arg args hend hpositional rule hrule hmany ih =>
    obtain ⟨front, segments, rest, hargs, hfront, hrest⟩ := ih
    have hoption := IsOption.of_not_isPositional hend hpositional hrule
    refine ⟨_, _, rest, ?_, .many_dropWhile hoption hmany hargs hfront, hrest⟩
    rw [List.cons_append, List.append_assoc, ← hargs, List.takeWhile_append_dropWhile]
  | case6 _ arg hend hpositional rule hrule hmany =>
    have hoption := IsOption.of_not_isPositional hend hpositional hrule
    exact ⟨[], [], _, rfl, .done, .refused (.lacking hoption (by simpa using hmany) nofun)⟩
  | case7 _ arg hend hpositional rule hrule hmany value args hvalue =>
    have hoption := IsOption.of_not_isPositional hend hpositional hrule
    have hnext : ∀ next ∈ (value :: args).head?, isDashed next = true :=
      fun next h => Option.some.inj h ▸ hvalue
    exact ⟨[], [], _, rfl, .done, .refused (.lacking hoption (by simpa using hmany) hnext)⟩
  | case8 _ arg hend hpositional rule hrule hmany value args hvalue ih =>
    obtain ⟨front, segments, rest, rfl, hfront, hrest⟩ := ih
    have hoption := IsOption.of_not_isPositional hend hpositional hrule
    exact ⟨arg :: value :: front, _, rest, rfl,
      .single hoption (by simpa using hmany) (by simpa using hvalue) hfront, hrest⟩

/-! ### The end of the options -/

theorem cutAtEnd_append_of_not_mem (h : "--" ∉ front) (rest : List String) :
    cutAtEnd (front ++ rest) = (front ++ (cutAtEnd rest).1, (cutAtEnd rest).2) := by
  have hall : ∀ a ∈ front, (a != "--") = true := fun a ha => bne_iff_ne.2 fun e => h (e ▸ ha)
  rw [cutAtEnd, List.takeWhile_append_of_pos hall, List.dropWhile_append_of_pos hall]
  rfl

theorem cutAtEnd_of_not_mem (h : "--" ∉ args) : cutAtEnd args = (args, []) := by
  have hnil : cutAtEnd [] = ([], []) := rfl
  have hcut := cutAtEnd_append_of_not_mem h []
  rwa [List.append_nil, hnil, List.append_nil] at hcut

theorem cutAtEnd_append (h : "--" ∉ front) (rest : List String) :
    cutAtEnd (front ++ "--" :: rest) = (front, rest) := by
  have hend : cutAtEnd ("--" :: rest) = ([], rest) := by simp [cutAtEnd]
  rw [cutAtEnd_append_of_not_mem h, hend, List.append_nil]

theorem cutAtEnd_cases (args : List String) :
    args = (cutAtEnd args).1 ∧ (cutAtEnd args).2 = [] ∨
      args = (cutAtEnd args).1 ++ "--" :: (cutAtEnd args).2 := by
  by_cases h : "--" ∈ args
  · right
    obtain ⟨front, rest, rfl, hfront⟩ := List.eq_append_cons_of_mem h
    rw [cutAtEnd_append hfront]
  · left
    rw [cutAtEnd_of_not_mem h]
    exact ⟨rfl, rfl⟩

theorem Segmented.end_not_mem (h : Segmented rules front segments) : "--" ∉ front := by
  induction h with
  | done => exact List.not_mem_nil
  | positional harg _ ih => simp [harg.ne_end.symm, ih]
  | single hoption _ hvalue _ ih =>
    simp [hoption.2.2.1.symm, (ne_end_of_not_dashed hvalue).symm, ih]
  | @many _ _ values _ _ hoption _ hvalues _ _ ih =>
    have hmem : "--" ∉ values := fun h => ne_end_of_not_dashed (hvalues _ h) rfl
    simp [hoption.2.2.1.symm, hmem, ih]

theorem parseFrom_nil : parseFrom rules inv [] = .ok (inv.addPositionals []) := by
  rw [parseFrom, Invocation.addPositionals, List.append_nil]

theorem parseFrom_end : parseFrom rules inv ("--" :: rest) = .ok (inv.addPositionals rest) := by
  rw [parseFrom, if_pos rfl]

/-- What is before the end of the options is understood segment by segment, and what is after it as
positional arguments. -/
theorem parse_of_segmented (h : Segmented rules (cutAtEnd args).1 segments) :
    parse rules args =
      .ok ((segments.foldl Invocation.add .empty).addPositionals (cutAtEnd args).2) := by
  rcases cutAtEnd_cases args with ⟨hargs, hfurther⟩ | hargs
  · calc parse rules args
        = parseFrom rules .empty ((cutAtEnd args).1 ++ []) := by
          rw [List.append_nil, ← hargs, parse]
      _ = parseFrom rules (segments.foldl Invocation.add .empty) [] :=
          h.parseFrom_append (by simp) .empty
      _ = _ := by rw [parseFrom_nil, hfurther]
  · have hdashed : ∀ next ∈ ("--" :: (cutAtEnd args).2).head?, isDashed next = true :=
      fun next hnext => Option.some.inj hnext ▸ isDashed_end
    calc parse rules args
        = parseFrom rules .empty ((cutAtEnd args).1 ++ "--" :: (cutAtEnd args).2) := by
          rw [← hargs, parse]
      _ = parseFrom rules (segments.foldl Invocation.add .empty) ("--" :: (cutAtEnd args).2) :=
          h.parseFrom_append hdashed .empty
      _ = _ := parseFrom_end

theorem parse_of_refused {error : UsageError} (hfront : Segmented rules front segments)
    (hrest : Refused rules rest error) : parse rules (front ++ rest) = .error error := by
  rw [parse, hfront.parseFrom_append hrest.dashed, hrest.parseFrom_eq]

/-- The arguments before the end of the options are segments, or some argument there is refused. -/
theorem segmented_or_refused (rules : List OptionRule) (args : List String) :
    (∃ segments, Segmented rules (cutAtEnd args).1 segments) ∨
      ∃ front segments rest error, args = front ++ rest ∧ Segmented rules front segments ∧
        Refused rules rest error := by
  obtain ⟨front, segments, rest, rfl, hfront, hrest⟩ := exists_segmented rules args
  cases hrest with
  | finished =>
    left
    rw [List.append_nil, cutAtEnd_of_not_mem hfront.end_not_mem]
    exact ⟨segments, hfront⟩
  | ended rest =>
    left
    rw [cutAtEnd_append hfront.end_not_mem]
    exact ⟨segments, hfront⟩
  | refused hrefused => exact .inr ⟨front, segments, rest, _, rfl, hfront, hrefused⟩

theorem parse_ok_iff :
    (∃ inv, parse rules args = .ok inv) ↔
      ∃ segments, Segmented rules (cutAtEnd args).1 segments := by
  constructor
  · rintro ⟨inv, hinv⟩
    rcases segmented_or_refused rules args with h |
      ⟨front, segments, rest, error, rfl, hfront, hrest⟩
    · exact h
    · rw [parse_of_refused hfront hrest] at hinv
      cases hinv
  · rintro ⟨segments, hsegments⟩
    exact ⟨_, parse_of_segmented hsegments⟩

theorem parse_error_iff {error : UsageError} :
    parse rules args = .error error ↔
      ∃ front segments rest, args = front ++ rest ∧ Segmented rules front segments ∧
        Refused rules rest error := by
  constructor
  · intro herror
    rcases segmented_or_refused rules args with ⟨segments, h⟩ |
      ⟨front, segments, rest, other, rfl, hfront, hrest⟩
    · rw [parse_of_segmented h] at herror
      cases herror
    · rw [parse_of_refused hfront hrest, Except.error.injEq] at herror
      exact ⟨front, segments, rest, rfl, hfront, herror ▸ hrest⟩
  · rintro ⟨front, segments, rest, rfl, hfront, hrest⟩
    exact parse_of_refused hfront hrest

/-! ### What segments say -/

theorem Segmented.flatMap_args (h : Segmented rules front segments) :
    segments.flatMap Segment.args = front := by
  induction h with
  | done => rfl
  | positional _ _ ih => simp [Segment.args, ih]
  | single _ _ _ _ ih => simp [Segment.args, ih]
  | many _ _ _ _ _ ih => simp [Segment.args, ih]

/-- The segment is a positional argument, or belongs to one of the rules and takes values as that
rule says. -/
def Segment.Obeys (rules : List OptionRule) : Segment → Prop
  | .positional _ => True
  | .single _ rule _ => rule ∈ rules ∧ rule.many = false
  | .many _ rule _ => rule ∈ rules ∧ rule.many = true

theorem mem_of_resolve (h : resolve rules arg = some rule) : rule ∈ rules := by
  rw [resolve] at h
  split at h
  · cases h
  · exact List.mem_of_find?_eq_some h

theorem Segmented.obeys (h : Segmented rules front segments) :
    ∀ segment ∈ segments, segment.Obeys rules := by
  induction h with
  | done => exact List.forall_mem_nil _
  | positional _ _ ih => exact List.forall_mem_cons.2 ⟨trivial, ih⟩
  | single hoption hone _ _ ih =>
    exact List.forall_mem_cons.2 ⟨⟨mem_of_resolve hoption.2.2.2, hone⟩, ih⟩
  | many hoption hmany _ _ _ ih =>
    exact List.forall_mem_cons.2 ⟨⟨mem_of_resolve hoption.2.2.2, hmany⟩, ih⟩

end CommandLine

namespace Invocation

variable {rules : List OptionRule} {rule : OptionRule} {front : List String}
  {segments : List Segment}

theorem positionals_foldl (segments : List Segment) (inv : Invocation) :
    (segments.foldl add inv).positionals =
      inv.positionals ++ segments.filterMap Segment.positional? := by
  induction segments generalizing inv with
  | nil => simp
  | cons segment segments ih =>
    rw [List.foldl_cons, ih]
    cases segment with
    | positional arg => simp [add, addPositionals, Segment.positional?]
    | single spelling rule value => rfl
    | many spelling rule values => rfl

theorem contains_add (inv : Invocation) (segment : Segment) (name : String) :
    (inv.add segment).contains name = ((segment.values? name).isSome || inv.contains name) := by
  cases segment with
  | positional arg => rfl
  | single spelling rule value =>
    rw [add, contains_assign, Segment.values?]
    by_cases h : rule.name = name <;> simp [h]
  | many spelling rule values =>
    rw [add, extend, contains_assign, Segment.values?]
    by_cases h : rule.name = name <;> simp [h]

theorem contains_foldl (segments : List Segment) (inv : Invocation) (name : String) :
    (segments.foldl add inv).contains name = true ↔
      inv.contains name = true ∨ ∃ segment ∈ segments, (segment.values? name).isSome := by
  induction segments generalizing inv with
  | nil => simp
  | cons segment segments ih =>
    rw [List.foldl_cons, ih, contains_add]
    simp [or_left_comm, or_assoc]

/-- An option whose segments all add to its values has the values of all of them. -/
theorem values_foldl_many {name : String} (h : ∀ segment ∈ segments, ∀ spelling rule value,
      segment = .single spelling rule value → rule.name ≠ name) (inv : Invocation) :
    (segments.foldl add inv).values name =
      inv.values name ++ (segments.filterMap (Segment.values? name)).flatten := by
  induction segments generalizing inv with
  | nil => simp
  | cons segment segments ih =>
    obtain ⟨hsegment, hsegments⟩ := List.forall_mem_cons.1 h
    rw [List.foldl_cons, ih hsegments]
    cases segment with
    | positional arg => rfl
    | single spelling rule value =>
      have hname := hsegment spelling rule value rfl
      simp [add, values_assign, Segment.values?, hname]
    | many spelling rule values =>
      rw [add, values_extend]
      by_cases hname : rule.name = name <;> simp [Segment.values?, hname, List.append_assoc]

/-- An option whose segments all replace its values has the value of the last of them. -/
theorem values_foldl_single {name : String} (h : ∀ segment ∈ segments, ∀ spelling rule values,
      segment = .many spelling rule values → rule.name ≠ name) (inv : Invocation) :
    (segments.foldl add inv).values name =
      (segments.filterMap (Segment.values? name)).getLast?.getD (inv.values name) := by
  induction segments generalizing inv with
  | nil => rfl
  | cons segment segments ih =>
    obtain ⟨hsegment, hsegments⟩ := List.forall_mem_cons.1 h
    rw [List.foldl_cons, ih hsegments]
    cases segment with
    | positional arg => rfl
    | single spelling rule value =>
      rw [add, values_assign]
      by_cases hname : rule.name = name
      · simp [Segment.values?, hname, List.getLast?_cons]
      · simp [Segment.values?, hname]
    | many spelling rule values =>
      have hname := hsegment spelling rule values rfl
      simp [add, values_extend, Segment.values?, hname]

theorem eq_of_name_eq {other : OptionRule} (hnames : (rules.map OptionRule.name).Nodup)
    (hrule : rule ∈ rules) (hother : other ∈ rules) (h : other.name = rule.name) :
    other = rule :=
  List.inj_on_of_nodup_map hnames hother hrule h

/-- After all segments, what they say is understood. -/
theorem records_foldl (hnames : (rules.map OptionRule.name).Nodup)
    (h : Segmented rules front segments) (further : List String) :
    ((segments.foldl add .empty).addPositionals further).Records rules segments further where
  positionals := by rw [addPositionals, positionals_foldl]; rfl
  many rule hrule hmany := by
    have hsegments : ∀ segment ∈ segments, ∀ spelling other value,
        segment = .single spelling other value → other.name ≠ rule.name := by
      rintro _ hmem spelling other value rfl hname
      obtain ⟨hother, hone⟩ := h.obeys _ hmem
      rw [eq_of_name_eq hnames hrule hother hname, hmany] at hone
      cases hone
    exact values_foldl_many hsegments .empty
  single rule hrule hone := by
    have hsegments : ∀ segment ∈ segments, ∀ spelling other values,
        segment = .many spelling other values → other.name ≠ rule.name := by
      rintro _ hmem spelling other values rfl hname
      obtain ⟨hother, hmany⟩ := h.obeys _ hmem
      rw [eq_of_name_eq hnames hrule hother hname, hone] at hmany
      cases hmany
    exact values_foldl_single hsegments .empty
  contains name := by
    have hcontains := contains_foldl segments .empty name
    have hempty : ¬ Invocation.empty.contains name = true := by
      simp [Invocation.contains, Invocation.empty, KeyedList.contains]
    rwa [or_iff_right hempty] at hcontains

end Invocation

namespace CommandLine

theorem records_of_parse (hnames : (rules.map OptionRule.name).Nodup)
    (hsegments : Segmented rules (cutAtEnd args).1 segments) (hinv : parse rules args = .ok inv) :
    inv.Records rules segments (cutAtEnd args).2 := by
  rw [parse_of_segmented hsegments, Except.ok.injEq] at hinv
  subst hinv
  exact Invocation.records_foldl hnames hsegments _

/-- An argument list is understood exactly if what is before the end of its options is a sequence of
segments. No argument is lost in these, and what is understood is what they say, with everything
after the end of the options as positional arguments. A list is refused for the first argument that
cannot start or complete a segment. -/
theorem parse_segmented {rules : List OptionRule} (hnames : (rules.map OptionRule.name).Nodup)
    (args : List String) :
    ((∃ inv, parse rules args = .ok inv) ↔
        ∃ segments, Segmented rules (cutAtEnd args).1 segments) ∧
      (∀ inv segments, parse rules args = .ok inv →
        Segmented rules (cutAtEnd args).1 segments →
          segments.flatMap Segment.args = (cutAtEnd args).1 ∧
            inv.Records rules segments (cutAtEnd args).2) ∧
      ∀ error, parse rules args = .error error ↔
        ∃ front segments rest, args = front ++ rest ∧ Segmented rules front segments ∧
          Refused rules rest error := by
  refine ⟨parse_ok_iff, ?_, fun error => parse_error_iff⟩
  intro inv segments hinv hsegments
  exact ⟨hsegments.flatMap_args, records_of_parse hnames hsegments hinv⟩

/-- Files named under two spellings add up, and of two ports the last one counts. -/
theorem parse_mixed_spellings :
    (Settings.rules.map OptionRule.name).Nodup ∧
      ∃ inv, parse Settings.rules ["-f", "b", "--files", "a", "-p", "1", "x", "--port", "2", "-",
          "--", "-f"] = .ok inv ∧
        inv.positionals = ["x", "-", "-f"] ∧ inv.values "files" = ["b", "a"] ∧
        inv.values "port" = ["2"] := by
  have hnames : (Settings.rules.map OptionRule.name).Nodup := by decide
  have hfiles : ⟨"files", ["f"], true⟩ ∈ Settings.rules := by decide
  have hport : ⟨"port", ["p"], false⟩ ∈ Settings.rules := by decide
  have hsegments : Segmented Settings.rules
      ["-f", "b", "--files", "a", "-p", "1", "x", "--port", "2", "-"]
      [.many "-f" ⟨"files", ["f"], true⟩ ["b"], .many "--files" ⟨"files", ["f"], true⟩ ["a"],
        .single "-p" ⟨"port", ["p"], false⟩ "1", .positional "x",
        .single "--port" ⟨"port", ["p"], false⟩ "2", .positional "-"] := by
    refine @Segmented.many _ _ _ ["b"] _ _ (by decide) rfl (by decide) (by decide) ?_
    refine @Segmented.many _ _ _ ["a"] _ _ (by decide) rfl (by decide) (by decide) ?_
    refine .single (by decide) rfl (by decide) ?_
    refine .positional (by decide) ?_
    refine .single (by decide) rfl (by decide) ?_
    exact .positional (by decide) .done
  obtain ⟨hok, hrecords, -⟩ := parse_segmented hnames
    ["-f", "b", "--files", "a", "-p", "1", "x", "--port", "2", "-", "--", "-f"]
  obtain ⟨inv, hinv⟩ := hok.2 ⟨_, hsegments⟩
  obtain ⟨-, h⟩ := hrecords inv _ hinv hsegments
  exact ⟨hnames, inv, hinv, h.positionals, h.many _ hfiles rfl, h.single _ hport rfl⟩

end CommandLine

end WireBench
