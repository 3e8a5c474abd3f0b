import WireBench.Proofs.JsonTokens

/-!
# Parsing reads the grammar

Bytes are parsed to a value exactly if they are a JSON text of it. One way, tokens that make up a
value take the parser from expecting a value to having one. The other way, what the parser expects
after some tokens says how the grammar accounts for these: which containers they opened, and what is
already in each of them.
-/

namespace WireBench.Json

open Expecting

variable {room : Nat} {v : Value} {t : Token} {ts us : List Token} {frames : List Frame}
  {state next : Expecting}

/-! ### Taking tokens -/

theorem Expecting.run_cons (state : Expecting) (t : Token) (ts : List Token) :
    run state (t :: ts) = (step state t).bind fun next => run next ts := by
  rw [run]
  cases step state t <;> rfl

theorem Expecting.run_append (state : Expecting) (ts us : List Token) :
    run state (ts ++ us) = (run state ts).bind fun next => run next us := by
  induction ts generalizing state with
  | nil => rfl
  | cons t ts ih =>
    rw [List.cons_append, run_cons, run_cons]
    cases step state t with
    | none => rfl
    | some next => exact ih next

theorem run_of_step (h : step state t = some next) (ts : List Token) :
    run state (t :: ts) = run next ts := by
  rw [run_cons, h, Option.bind_some]

theorem run_of_run (h : run state ts = some next) (us : List Token) :
    run state (ts ++ us) = run next us := by
  rw [run_append, h, Option.bind_some]

theorem Expecting.run_singleton (state : Expecting) (t : Token) : run state [t] = step state t := by
  rw [run_cons]
  cases step state t <;> rfl

theorem ofTokens?_eq_some_iff :
    Value.ofTokens? ts = some v ↔ run (.value []) ts = some (.nothing v) := by
  rw [Value.ofTokens?]
  split <;> simp_all

/-! ### What makes up a value is parsed -/

def StartsElement (ts : List Token) : Prop :=
  ∃ t us, ts = t :: us ∧ t ≠ .closeArray

def StartsMember (ts : List Token) : Prop :=
  ∃ name us, ts = .text name :: us

theorem Written.startsElement (h : Written room v ts) (us : List Token) :
    StartsElement (ts ++ us) := by
  cases h <;> exact ⟨_, _, rfl, nofun⟩

theorem ElementsWritten.startsElement {room : Nat} {vs : List Value} {ts us : List Token} :
    ElementsWritten room vs ts → StartsElement us → StartsElement (ts ++ us)
  | .none, hus => hus
  | .more hvs hv, _ => by
    rw [List.append_assoc, List.append_assoc]
    exact hvs.startsElement (hv.startsElement _)

theorem MembersWritten.startsMember {room : Nat} {ms : List (String × Value)}
    {ts us : List Token} : MembersWritten room ms ts → StartsMember us → StartsMember (ts ++ us)
  | .none, hus => hus
  | .more hms _, _ => by
    rw [List.append_assoc]
    exact hms.startsMember ⟨_, _, rfl⟩

theorem step_firstElement (h : t ≠ .closeArray) :
    step (.firstElement frames) t = step (.value (.array [] :: frames)) t := by
  cases t <;> first | rfl | exact absurd rfl h

/-- Where an array may close at once, an element is expected as in an array that is empty so far. -/
theorem run_firstElement (h : StartsElement ts) :
    run (.firstElement frames) ts = run (.value (.array [] :: frames)) ts := by
  obtain ⟨t, us, rfl, ht⟩ := h
  rw [run_cons, run_cons, step_firstElement ht]

theorem run_firstName (h : StartsMember ts) :
    run (.firstName frames) ts = run (.name [] frames) ts := by
  obtain ⟨name, us, rfl⟩ := h
  rfl

theorem step_openArray (h : frames.length < depthLimit) :
    step (.value frames) .openArray = some (.firstElement frames) :=
  if_pos h

theorem step_openObject (h : frames.length < depthLimit) :
    step (.value frames) .openObject = some (.firstName frames) :=
  if_pos h

theorem run_member (key : String) (ms : List (String × Value)) (frames : List Frame)
    (ts : List Token) : run (.name ms frames) (.text key :: .colon :: ts) =
      run (.value (.member ms key :: frames)) ts :=
  rfl

mutual

/-- The tokens of a value are taken, and the value goes into the container on top. -/
theorem Written.run_eq {room : Nat} {v : Value} {ts : List Token} {frames : List Frame} :
    Written room v ts → frames.length + room ≤ depthLimit →
      run (.value frames) ts = place v frames
  | .null, _ => run_singleton ..
  | .bool, _ => run_singleton ..
  | .number, _ => run_singleton ..
  | .text, _ => run_singleton ..
  | .emptyArray, hroom => by
    rw [run_of_step (step_openArray (by omega))]
    exact run_singleton ..
  | @Written.array room vs v ts us hvs hv, hroom => by
    have hstart := hvs.startsElement (hv.startsElement [.closeArray])
    have hinside : (.array vs.reverse :: frames).length + room ≤ depthLimit := by
      rw [List.length_cons]
      omega
    calc run (.value frames) (.openArray :: (ts ++ (us ++ [.closeArray])))
        = run (.firstElement frames) (ts ++ (us ++ [.closeArray])) :=
          run_of_step (step_openArray (by omega)) _
      _ = run (.value (.array [] :: frames)) (ts ++ (us ++ [.closeArray])) :=
          run_firstElement hstart
      _ = run (.value (.array vs.reverse :: frames)) (us ++ [.closeArray]) :=
          run_of_run (hvs.run_eq (by omega)) _
      _ = run (.next (.array (v :: vs.reverse)) frames) [.closeArray] :=
          run_of_run (hv.run_eq hinside) _
      _ = place (.array (v :: vs.reverse).reverse) frames := run_singleton ..
      _ = place (.array (vs ++ [v])) frames := by rw [List.reverse_cons, List.reverse_reverse]
  | .emptyObject, hroom => by
    rw [run_of_step (step_openObject (by omega))]
    exact run_singleton ..
  | @Written.object room ms key v ts us hms hv, hroom => by
    have hstart : StartsMember (ts ++ .text key :: .colon :: (us ++ [.closeObject])) :=
      hms.startsMember ⟨_, _, rfl⟩
    have hinside : (.member ms.reverse key :: frames).length + room ≤ depthLimit := by
      rw [List.length_cons]
      omega
    calc run (.value frames) (.openObject :: (ts ++ .text key :: .colon :: (us ++ [.closeObject])))
        = run (.firstName frames) (ts ++ .text key :: .colon :: (us ++ [.closeObject])) :=
          run_of_step (step_openObject (by omega)) _
      _ = run (.name [] frames) (ts ++ .text key :: .colon :: (us ++ [.closeObject])) :=
          run_firstName hstart
      _ = run (.name ms.reverse frames) (.text key :: .colon :: (us ++ [.closeObject])) :=
          run_of_run (hms.run_eq (by omega)) _
      _ = run (.value (.member ms.reverse key :: frames)) (us ++ [.closeObject]) := run_member ..
      _ = run (.next (.object ((key, v) :: ms.reverse)) frames) [.closeObject] :=
          run_of_run (hv.run_eq hinside) _
      _ = place (.ofMembers ((key, v) :: ms.reverse).reverse) frames := run_singleton ..
      _ = place (.ofMembers (ms ++ [(key, v)])) frames := by
          rw [List.reverse_cons, List.reverse_reverse]

theorem ElementsWritten.run_eq {room : Nat} {vs : List Value} {ts : List Token}
    {frames : List Frame} : ElementsWritten room vs ts → frames.length + 1 + room ≤ depthLimit →
      run (.value (.array [] :: frames)) ts = some (.value (.array vs.reverse :: frames))
  | .none, _ => rfl
  | @ElementsWritten.more room vs v ts us hvs hv, hroom => by
    calc run (.value (.array [] :: frames)) (ts ++ (us ++ [.comma]))
        = run (.value (.array vs.reverse :: frames)) (us ++ [.comma]) :=
          run_of_run (hvs.run_eq hroom) _
      _ = run (.next (.array (v :: vs.reverse)) frames) [.comma] :=
          run_of_run (hv.run_eq (by rwa [List.length_cons])) _
      _ = some (.value (.array (vs ++ [v]).reverse :: frames)) := by
          rw [List.reverse_append]
          exact run_singleton ..

theorem MembersWritten.run_eq {room : Nat} {ms : List (String × Value)} {ts : List Token}
    {frames : List Frame} : MembersWritten room ms ts → frames.length + 1 + room ≤ depthLimit →
      run (.name [] frames) ts = some (.name ms.reverse frames)
  | .none, _ => rfl
  | @MembersWritten.more room ms key v ts us hms hv, hroom => by
    calc run (.name [] frames) (ts ++ .text key :: .colon :: (us ++ [.comma]))
        = run (.name ms.reverse frames) (.text key :: .colon :: (us ++ [.comma])) :=
          run_of_run (hms.run_eq hroom) _
      _ = run (.value (.member ms.reverse key :: frames)) (us ++ [.comma]) := run_member ..
      _ = run (.next (.object ((key, v) :: ms.reverse)) frames) [.comma] :=
          run_of_run (hv.run_eq (by rwa [List.length_cons])) _
      _ = some (.name (ms ++ [(key, v)]).reverse frames) := by
          rw [List.reverse_append]
          exact run_singleton ..

end

/-! ### What is parsed makes up a value -/

/-- Some tokens open these containers: each holds what was closed in it, and a member that waits for
its value has its name. So many containers may still be opened. -/
inductive Opens : Nat → List Frame → List Token → Prop where
  | none : Opens depthLimit [] []
  | array {room : Nat} {frames : List Frame} {done : List Value} {ts us : List Token} :
    Opens (room + 1) frames ts → ElementsWritten room done.reverse us →
    Opens room (.array done :: frames) (ts ++ .openArray :: us)
  | member {room : Nat} {frames : List Frame} {done : List (String × Value)} {name : String}
      {ts us : List Token} : Opens (room + 1) frames ts → MembersWritten room done.reverse us →
    Opens room (.member done name :: frames) (ts ++ .openObject :: (us ++ [.text name, .colon]))

/-- What is expected after some tokens. -/
inductive IsExpected : Expecting → List Token → Prop where
  | value {room : Nat} {frames : List Frame} {ts : List Token} :
    Opens room frames ts → IsExpected (.value frames) ts
  | firstElement {room : Nat} {frames : List Frame} {ts : List Token} :
    Opens (room + 1) frames ts → IsExpected (.firstElement frames) (ts ++ [.openArray])
  | firstName {room : Nat} {frames : List Frame} {ts : List Token} :
    Opens (room + 1) frames ts → IsExpected (.firstName frames) (ts ++ [.openObject])
  | name {room : Nat} {frames : List Frame} {done : List (String × Value)} {ts us : List Token} :
    Opens (room + 1) frames ts → MembersWritten room done.reverse us →
    IsExpected (.name done frames) (ts ++ .openObject :: us)
  | colon {room : Nat} {frames : List Frame} {done : List (String × Value)} {name : String}
      {ts us : List Token} : Opens (room + 1) frames ts → MembersWritten room done.reverse us →
    IsExpected (.colon (.member done name :: frames)) (ts ++ .openObject :: (us ++ [.text name]))
  | nextElement {room : Nat} {frames : List Frame} {done : List Value} {v : Value}
      {ts us ws : List Token} : Opens (room + 1) frames ts → ElementsWritten room done.reverse us →
    Written room v ws →
    IsExpected (.next (.array (v :: done)) frames) (ts ++ .openArray :: (us ++ ws))
  | nextMember {room : Nat} {frames : List Frame} {done : List (String × Value)} {name : String}
      {v : Value} {ts us ws : List Token} : Opens (room + 1) frames ts →
    MembersWritten room done.reverse us → Written room v ws →
    IsExpected (.next (.object ((name, v) :: done)) frames)
      (ts ++ .openObject :: (us ++ .text name :: .colon :: ws))
  | nothing {v : Value} {ts : List Token} : Written depthLimit v ts → IsExpected (.nothing v) ts

theorem Opens.length_add (h : Opens room frames ts) : frames.length + room = depthLimit := by
  induction h with
  | none => exact Nat.zero_add depthLimit
  | array _ _ ih => rw [List.length_cons]; omega
  | member _ _ ih => rw [List.length_cons]; omega

theorem Opens.room_pos (h : Opens room frames ts) (hlength : frames.length < depthLimit) :
    ∃ less, room = less + 1 :=
  Nat.exists_eq_add_one.2 (by have hroom := h.length_add; omega)

theorem Opens.place (h : Opens room frames ts) (hv : Written room v us)
    (hplace : place v frames = some next) : IsExpected next (ts ++ us) := by
  cases h with
  | none =>
    obtain rfl := Option.some.inj hplace
    exact .nothing hv
  | @array _ _ done ts vs hts hvs =>
    obtain rfl := Option.some.inj hplace
    rw [List.append_assoc, List.cons_append]
    exact .nextElement hts hvs hv
  | @member _ _ done name ts vs hts hms =>
    obtain rfl := Option.some.inj hplace
    rw [List.append_assoc, List.cons_append, List.append_assoc]
    exact .nextMember hts hms hv

theorem Opens.begin (h : Opens room frames ts) (hbegin : begin frames t = some next) :
    IsExpected next (ts ++ [t]) := by
  rw [begin.eq_def] at hbegin
  split at hbegin
  · exact h.place .null hbegin
  · exact h.place .bool hbegin
  · exact h.place .number hbegin
  · exact h.place .text hbegin
  · split at hbegin
    · next hlength =>
      obtain rfl := Option.some.inj hbegin
      obtain ⟨less, rfl⟩ := h.room_pos hlength
      exact .firstElement h
    · cases hbegin
  · split at hbegin
    · next hlength =>
      obtain rfl := Option.some.inj hbegin
      obtain ⟨less, rfl⟩ := h.room_pos hlength
      exact .firstName h
    · cases hbegin
  · cases hbegin

/-- One more token leads to what is expected after it. -/
theorem IsExpected.step (h : IsExpected state ts) (hstep : step state t = some next) :
    IsExpected next (ts ++ [t]) := by
  cases h with
  | value hts => exact hts.begin hstep
  | @firstElement room frames ts hts =>
    rw [List.append_assoc]
    by_cases hclose : t = .closeArray
    · rw [hclose] at hstep ⊢
      exact hts.place .emptyArray hstep
    · rw [step_firstElement hclose] at hstep
      have hfirst := (Opens.array hts .none).begin hstep
      rwa [List.append_assoc] at hfirst
  | @firstName room frames ts hts =>
    rw [List.append_assoc]
    cases t with
    | closeObject => exact hts.place .emptyObject hstep
    | text s =>
      obtain rfl := Option.some.inj hstep
      exact .colon hts .none
    | _ => cases hstep
  | @name room frames done ts us hts hms =>
    cases t with
    | text s =>
      obtain rfl := Option.some.inj hstep
      rw [List.append_assoc]
      exact .colon hts hms
    | _ => cases hstep
  | @colon room frames done key ts us hts hms =>
    cases t with
    | colon =>
      obtain rfl := Option.some.inj hstep
      rw [List.append_assoc, List.cons_append, List.append_assoc]
      exact .value (.member hts hms)
    | _ => cases hstep
  | @nextElement room frames done v ts us ws hts hvs hv =>
    rw [List.append_assoc, List.cons_append, List.append_assoc]
    cases t with
    | comma =>
      obtain rfl := Option.some.inj hstep
      have hmore := ElementsWritten.more hvs hv
      rw [← List.reverse_cons] at hmore
      exact .value (.array hts hmore)
    | closeArray =>
      have harray := Written.array hvs hv
      rw [← List.reverse_cons] at harray
      exact hts.place harray hstep
    | _ => cases hstep
  | @nextMember room frames done key v ts us ws hts hms hv =>
    rw [List.append_assoc, List.cons_append, List.append_assoc]
    cases t with
    | comma =>
      obtain rfl := Option.some.inj hstep
      have hmore := @MembersWritten.more _ _ key _ _ _ hms hv
      rw [← List.reverse_cons] at hmore
      exact .name hts hmore
    | closeObject =>
      have hobject := @Written.object _ _ key _ _ _ hms hv
      rw [← List.reverse_cons] at hobject
      exact hts.place hobject hstep
    | _ => cases hstep
  | nothing hv => cases hstep

theorem IsExpected.run (h : IsExpected state ts) (hrun : run state us = some next) :
    IsExpected next (ts ++ us) := by
  induction us generalizing state ts with
  | nil =>
    obtain rfl := Option.some.inj hrun
    rwa [List.append_nil]
  | cons t us ih =>
    rw [run_cons] at hrun
    obtain ⟨mid, hstep, hrest⟩ := Option.bind_eq_some_iff.1 hrun
    have hmore := ih (h.step hstep) hrest
    rwa [List.append_assoc, List.singleton_append] at hmore

/-- Tokens are parsed to a value exactly if they make it up. -/
theorem ofTokens?_iff_written : Value.ofTokens? ts = some v ↔ Written depthLimit v ts := by
  rw [ofTokens?_eq_some_iff]
  constructor
  · intro h
    have hnothing := (IsExpected.value Opens.none).run h
    cases hnothing with
    | nothing hv => exact hv
  · intro h
    exact h.run_eq (by simp)

/-- Bytes are parsed to a value exactly if they are a text of it. -/
theorem parse?_eq_some_iff {bs : Bytes} : Value.parse? bs = some v ↔ IsText bs v := by
  have htokens : ∀ s : String, (Token.readAll s.toList).bind Value.ofTokens? = some v ↔
      ∃ ts, Spelled ts s.toList ∧ Written depthLimit v ts := by
    intro s
    rw [Option.bind_eq_some_iff]
    exact exists_congr fun ts => and_congr readAll_eq_some_iff ofTokens?_iff_written
  rw [Value.parse?]
  constructor
  · intro h
    split at h
    · cases h
    · next s hs =>
      obtain ⟨ts, hspelled, hwritten⟩ := (htokens s).1 h
      exact ⟨s.toList, ts, (Utf8.decode?_eq_some_iff.1 hs).symm, hspelled, hwritten⟩
  · rintro ⟨cs, ts, rfl, hspelled, hwritten⟩
    have hdecode : Utf8.decode? (Utf8.encodeChars cs) = some (String.ofList cs) := by
      rw [Utf8.decode?_eq_some_iff, Utf8.encode, String.toList_ofList]
    rw [hdecode]
    exact (htokens (String.ofList cs)).2 ⟨ts, by rwa [String.toList_ofList], hwritten⟩

/-- A text is a text of one value. -/
theorem IsText.value_eq {bs : Bytes} {v w : Value} (hv : IsText bs v) (hw : IsText bs w) :
    v = w := by
  have hparsed := parse?_eq_some_iff.2 hv
  rw [parse?_eq_some_iff.2 hw] at hparsed
  exact (Option.some.inj hparsed).symm

end WireBench.Json
