import WireBench.Proofs.Segmentation

/-!
# Command lines put together

Arguments that start with an option can be put behind a command line whose options have not ended:
the two are understood as if each were alone, and what is understood of them is joined.
-/

namespace WireBench

open WireBench.CommandLine

namespace Invocation

/-- Whether what is understood joins what is understood of two argument lists: an option of many has
the values of both, and one with a single value has that of the latter, if it is given there. -/
structure Joins (all : Invocation) (rules : List OptionRule) (inv more : Invocation) : Prop where
  positionals : all.positionals = inv.positionals ++ more.positionals
  many : ∀ rule ∈ rules, rule.many = true →
    all.values rule.name = inv.values rule.name ++ more.values rule.name
  single : ∀ rule ∈ rules, rule.many = false →
    all.values rule.name =
      if more.contains rule.name then more.values rule.name else inv.values rule.name
  contains : ∀ name, all.contains name = (inv.contains name || more.contains name)

variable {rules : List OptionRule} {inv more all : Invocation} {segments others : List Segment}
  {further : List String}

theorem Records.contains_iff (h : inv.Records rules segments further) {name : String} :
    inv.contains name = true ↔ segments.filterMap (Segment.values? name) ≠ [] := by
  rw [h.contains]
  simp only [ne_eq, List.filterMap_eq_nil_iff, not_forall, Option.isSome_iff_ne_none, exists_prop]

/-- What two sequences of segments say one after the other is what they say alone, joined. -/
theorem Records.joins (hall : all.Records rules (segments ++ others) further)
    (hinv : inv.Records rules segments []) (hmore : more.Records rules others further) :
    all.Joins rules inv more where
  positionals := by
    rw [hall.positionals, hinv.positionals, hmore.positionals, List.filterMap_append,
      List.append_nil, List.append_assoc]
  many rule hrule hmany := by
    rw [hall.many rule hrule hmany, hinv.many rule hrule hmany, hmore.many rule hrule hmany,
      List.filterMap_append, List.flatten_append]
  single rule hrule hone := by
    rw [hall.single rule hrule hone, hinv.single rule hrule hone, hmore.single rule hrule hone,
      List.filterMap_append, List.getLast?_append]
    by_cases hgiven : others.filterMap (Segment.values? rule.name) = []
    · rw [if_neg fun hcontains => hmore.contains_iff.1 hcontains hgiven, hgiven]
      rfl
    · rw [if_pos (hmore.contains_iff.2 hgiven), List.getLast?_eq_some_getLast hgiven]
      rfl
  contains name := by
    rw [Bool.eq_iff_iff, Bool.or_eq_true, hall.contains, hinv.contains, hmore.contains]
    simp only [List.mem_append, or_and_right, exists_or]

end Invocation

namespace CommandLine

variable {rules : List OptionRule} {args front back rest : List String}
  {segments others : List Segment} {error : UsageError}

theorem dashed_of_isPrefix (h : front <+: args)
    (hargs : ∀ next ∈ args.head?, isDashed next = true) :
    ∀ next ∈ front.head?, isDashed next = true := by
  obtain ⟨rest, rfl⟩ := h
  cases front with
  | nil => exact nofun
  | cons next front => exact hargs

theorem cutAtEnd_isPrefix (args : List String) : (cutAtEnd args).1 <+: args :=
  List.takeWhile_prefix _

theorem Segmented.append (h : Segmented rules front segments) (hback : Segmented rules back others)
    (hdashed : ∀ next ∈ back.head?, isDashed next = true) :
    Segmented rules (front ++ back) (segments ++ others) := by
  induction h with
  | done => exact hback
  | positional harg _ ih => exact .positional harg ih
  | single hoption hone hvalue _ ih => exact .single hoption hone hvalue ih
  | many hoption hmany hvalues hnext _ ih =>
    rw [List.cons_append, List.append_assoc]
    exact .many hoption hmany hvalues (dashed_append hnext hdashed) ih

theorem Refused.append (h : Refused rules args error)
    (hdashed : ∀ next ∈ rest.head?, isDashed next = true) : Refused rules (args ++ rest) error := by
  cases h with
  | unknown hdash hsingle hend hnone => exact .unknown hdash hsingle hend hnone
  | lacking hoption hone hnext => exact .lacking hoption hone (dashed_append hnext hdashed)

/-- Arguments that start with a dash, behind a command line whose options have not ended, are
understood as if they stood alone. A mistake in the former is found first, and what is understood
of the two is joined. -/
theorem parse_append (hnames : (rules.map OptionRule.name).Nodup) (hend : "--" ∉ front)
    (hdashed : ∀ next ∈ back.head?, isDashed next = true) :
    (∀ error, parse rules front = .error error → parse rules (front ++ back) = .error error) ∧
      (∀ inv error, parse rules front = .ok inv → parse rules back = .error error →
        parse rules (front ++ back) = .error error) ∧
      ∀ inv more, parse rules front = .ok inv → parse rules back = .ok more →
        ∃ all, parse rules (front ++ back) = .ok all ∧ all.Joins rules inv more := by
  have hcutFront := cutAtEnd_of_not_mem hend
  have hcut := cutAtEnd_append_of_not_mem hend back
  refine ⟨fun error herror => ?_, fun inv error hinv herror => ?_, fun inv more hinv hmore => ?_⟩
  · obtain ⟨known, segments, rest, rfl, hknown, hrest⟩ := parse_error_iff.1 herror
    rw [List.append_assoc]
    exact parse_of_refused hknown (hrest.append hdashed)
  · obtain ⟨segments, hfront⟩ := parse_ok_iff.1 ⟨inv, hinv⟩
    rw [hcutFront] at hfront
    obtain ⟨known, others, rest, rfl, hknown, hrest⟩ := parse_error_iff.1 herror
    have hboth := hfront.append hknown (dashed_of_isPrefix (List.prefix_append known rest) hdashed)
    rw [← List.append_assoc]
    exact parse_of_refused hboth hrest
  · obtain ⟨segments, hfront⟩ := parse_ok_iff.1 ⟨inv, hinv⟩
    obtain ⟨others, hback⟩ := parse_ok_iff.1 ⟨more, hmore⟩
    have hinvRecords := records_of_parse hnames hfront hinv
    rw [hcutFront] at hfront hinvRecords
    have hboth : Segmented rules (cutAtEnd (front ++ back)).1 (segments ++ others) := by
      rw [hcut]
      exact hfront.append hback (dashed_of_isPrefix (cutAtEnd_isPrefix back) hdashed)
    obtain ⟨all, hall⟩ := parse_ok_iff.2 ⟨_, hboth⟩
    have hallRecords := records_of_parse hnames hboth hall
    rw [hcut] at hallRecords
    exact ⟨all, hall, hallRecords.joins hinvRecords (records_of_parse hnames hback hmore)⟩

/-- A port that is given again behind a command line counts, and files that are named there are
added; an option that lacks its value does not take what is put behind it. -/
theorem parse_appended_options :
    (∃ all, parse Settings.rules ["x", "-p", "1", "-f", "b", "--port", "2", "--files", "a", "--",
        "-f"] = .ok all ∧
      all.positionals = ["x", "-f"] ∧ all.values "port" = ["2"] ∧ all.values "files" = ["b", "a"] ∧
      all.contains "host" = false) ∧
      parse Settings.rules ["x", "-p", "-f", "b"] = .error (.missingValue "-p") := by
  have hnames : (Settings.rules.map OptionRule.name).Nodup := by decide
  have hport : ⟨"port", ["p"], false⟩ ∈ Settings.rules := by decide
  have hfiles : ⟨"files", ["f"], true⟩ ∈ Settings.rules := by decide
  have hfront : Segmented Settings.rules ["x", "-p", "1", "-f", "b"]
      [.positional "x", .single "-p" ⟨"port", ["p"], false⟩ "1",
        .many "-f" ⟨"files", ["f"], true⟩ ["b"]] := by
    refine .positional (by decide) ?_
    refine .single (by decide) rfl (by decide) ?_
    exact @Segmented.many _ _ _ ["b"] _ _ (by decide) rfl (by decide) (by decide) .done
  have hback : Segmented Settings.rules ["--port", "2", "--files", "a"]
      [.single "--port" ⟨"port", ["p"], false⟩ "2",
        .many "--files" ⟨"files", ["f"], true⟩ ["a"]] := by
    refine .single (by decide) rfl (by decide) ?_
    exact @Segmented.many _ _ _ ["a"] _ _ (by decide) rfl (by decide) (by decide) .done
  have hlacking : Refused Settings.rules ["-p"] (.missingValue "-p") :=
    .lacking (by decide : IsOption _ _ ⟨"port", ["p"], false⟩) rfl nofun
  obtain ⟨-, -, hjoined⟩ := @parse_append _ ["x", "-p", "1", "-f", "b"]
    ["--port", "2", "--files", "a", "--", "-f"] hnames (by decide) (by decide)
  obtain ⟨all, hall, hjoins⟩ := hjoined _ _ (parse_of_segmented hfront) (parse_of_segmented hback)
  obtain ⟨hrefused, -⟩ := @parse_append _ ["x", "-p"] ["-f", "b"] hnames (by decide) (by decide)
  refine ⟨⟨all, hall, hjoins.positionals, hjoins.single _ hport rfl, hjoins.many _ hfiles rfl,
    hjoins.contains "host"⟩, hrefused _ ?_⟩
  exact parse_of_refused (.positional (by decide) .done) hlacking

end CommandLine

end WireBench
