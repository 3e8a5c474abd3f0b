import WireBench.Proofs.NumeralText
import WireBench.Proofs.Segmentation

/-!
# Settings as told

Settings follow from four things that a command line says: the last host, the last port and the last
size of pieces that it gives, and all paths that it names. What is not given is the default; of
several mistakes the first in that order is reported, and of several bad paths the first.
-/

namespace WireBench

open WireBench.CommandLine

namespace Part

/-- A path leads to a file that can be read, and the part is made of the path and its content. -/
def IsLoaded (types : MediaType.Lookup) (files : FileSystem) (path : Bytes) (part : Part) : Prop :=
  ∃ bytes, files path = .content bytes ∧ part = Part.ofPath types path bytes

inductive Fails (files : FileSystem) (path : Bytes) : SettingsError → Prop where
  | missing : files path = .noFile → Fails files path (.missingFile path)
  | unreadable {reason : String} : files path = .unreadable reason →
    Fails files path (.unreadableFile path reason)

variable {types : MediaType.Lookup} {files : FileSystem} {path : Bytes} {paths : List Bytes}
  {parts : List Part} {error : SettingsError}

theorem load_cons_of_fails (h : Fails files path error) :
    load types files (path :: paths) = .error error := by
  cases h with
  | missing h => rw [load, h]
  | unreadable h => rw [load, h]

theorem load_cons_of_content {bytes : Bytes} (h : files path = .content bytes) :
    load types files (path :: paths) = (load types files paths).map (Part.ofPath types path bytes :: ·) := by
  rw [load, h]

theorem content_or_fails (files : FileSystem) (path : Bytes) :
    (∃ bytes, files path = .content bytes) ∨ ∃ error, Fails files path error := by
  cases h : files path with
  | noFile => exact .inr ⟨_, .missing h⟩
  | unreadable reason => exact .inr ⟨_, .unreadable h⟩
  | content bytes => exact .inl ⟨bytes, rfl⟩

theorem Fails.not_content (h : Fails files path error) (bytes : Bytes) :
    files path ≠ .content bytes := by
  cases h with
  | missing h => simp [h]
  | unreadable h => simp [h]

/-- Parts are loaded exactly if every path leads to a file that can be read, one part a path and in
the same order. -/
theorem load_eq_ok_iff :
    load types files paths = .ok parts ↔ List.Forall₂ (IsLoaded types files) paths parts := by
  induction paths generalizing parts with
  | nil =>
    rw [load, List.forall₂_nil_left_iff, Except.ok.injEq]
    exact eq_comm
  | cons path paths ih =>
    rw [List.forall₂_cons_left_iff]
    rcases content_or_fails files path with ⟨bytes, hpath⟩ | ⟨error, hpath⟩
    · rw [load_cons_of_content hpath]
      constructor
      · intro h
        cases hload : load types files paths with
        | error error => rw [hload] at h; cases h
        | ok others =>
          rw [hload] at h
          obtain rfl : Part.ofPath types path bytes :: others = parts := Except.ok.inj h
          exact ⟨_, others, ⟨bytes, hpath, rfl⟩, ih.1 hload, rfl⟩
      · rintro ⟨_, others, ⟨other, hother, rfl⟩, hmore, rfl⟩
        obtain rfl : bytes = other := FileStatus.content.inj (hpath.symm.trans hother)
        rw [ih.2 hmore]
        rfl
    · rw [load_cons_of_fails hpath]
      constructor
      · nofun
      · rintro ⟨_, _, ⟨bytes, hbytes, -⟩, -⟩
        exact absurd hbytes (hpath.not_content bytes)

theorem exists_isLoaded_iff :
    (∃ parts, List.Forall₂ (IsLoaded types files) paths parts) ↔
      ∀ path ∈ paths, ∃ bytes, files path = .content bytes := by
  induction paths with
  | nil => simp
  | cons path paths ih =>
    rw [List.forall_mem_cons, ← ih]
    constructor
    · rintro ⟨_, h⟩
      cases h with
      | cons hpart hmore =>
        obtain ⟨bytes, hbytes, -⟩ := hpart
        exact ⟨⟨bytes, hbytes⟩, _, hmore⟩
    · rintro ⟨⟨bytes, hbytes⟩, parts, hmore⟩
      exact ⟨_, .cons ⟨bytes, hbytes, rfl⟩ hmore⟩

/-- Loading fails exactly for the first path that leads to no file that can be read. -/
theorem load_eq_error_iff :
    load types files paths = .error error ↔
      ∃ before path after, paths = before ++ path :: after ∧
        (∀ p ∈ before, ∃ bytes, files p = .content bytes) ∧ Fails files path error := by
  induction paths with
  | nil => simp [load]
  | cons path paths ih =>
    rcases content_or_fails files path with ⟨bytes, hpath⟩ | ⟨other, hpath⟩
    · rw [load_cons_of_content hpath]
      constructor
      · intro h
        cases hload : load types files paths with
        | ok parts => rw [hload] at h; cases h
        | error first =>
          rw [hload] at h
          obtain rfl : first = error := Except.error.inj h
          obtain ⟨before, bad, after, rfl, hbefore, hbad⟩ := ih.1 hload
          exact ⟨path :: before, bad, after, rfl,
            List.forall_mem_cons.2 ⟨⟨bytes, hpath⟩, hbefore⟩, hbad⟩
      · rintro ⟨before, bad, after, hpaths, hbefore, hbad⟩
        cases before with
        | nil =>
          obtain ⟨rfl, rfl⟩ := List.cons.inj hpaths
          exact absurd hpath (hbad.not_content bytes)
        | cons first before =>
          obtain ⟨rfl, rfl⟩ := List.cons.inj hpaths
          rw [ih.2 ⟨before, bad, after, rfl, (List.forall_mem_cons.1 hbefore).2, hbad⟩]
          rfl
    · rw [load_cons_of_fails hpath, Except.error.injEq]
      constructor
      · rintro rfl
        exact ⟨[], path, paths, rfl, List.forall_mem_nil _, hpath⟩
      · rintro ⟨before, bad, after, hpaths, hbefore, hbad⟩
        cases before with
        | nil =>
          obtain ⟨rfl, rfl⟩ := List.cons.inj hpaths
          exact Except.error.inj
            ((load_cons_of_fails hpath).symm.trans (@load_cons_of_fails types _ _ paths _ hbad))
        | cons first before =>
          obtain ⟨rfl, rfl⟩ := List.cons.inj hpaths
          obtain ⟨bytes, hbytes⟩ := (List.forall_mem_cons.1 hbefore).1
          exact absurd hbytes (hpath.not_content bytes)

end Part

namespace CommandLine

def allValues (name : String) (segments : List Segment) : List String :=
  (segments.filterMap (Segment.values? name)).flatten

def lastValue? (name : String) (segments : List Segment) : Option String :=
  (segments.filterMap (Segment.values? name)).getLast?.bind List.getLast?

end CommandLine

namespace Settings

/-- What a command line says of the settings: the last host, port and size, and all paths. -/
structure Said where
  host? : Option String
  port? : Option String
  chunk? : Option String
  paths : List String

namespace Said

def ofSegments (segments : List Segment) : Said where
  host? := lastValue? "host" segments
  port? := lastValue? "port" segments
  chunk? := lastValue? "chunk-size" segments
  paths := allValues "files" segments

def ofInvocation (inv : Invocation) : Said where
  host? := inv.get? "host"
  port? := inv.get? "port"
  chunk? := inv.get? "chunk-size"
  paths := inv.values "files"

/-- The number that a text spells, between two bounds; without a text the number is another one. -/
def Tells (text? : Option String) (other least limit n : Nat) : Prop :=
  match text? with
  | none => n = other
  | some text => Numeral.Spells text n ∧ least ≤ n ∧ n ≤ limit

def TellsPort (said : Said) (port : Nat) : Prop :=
  Tells said.port? defaultPort 0 Numeral.portLimit port

def TellsChunk (said : Said) (chunk : Nat) : Prop :=
  Tells said.chunk? defaultChunk 1 Numeral.sizeLimit chunk

theorem TellsChunk.pos {said : Said} {chunk : Nat} (h : said.TellsChunk chunk) : 0 < chunk := by
  rw [TellsChunk] at h
  cases hsaid : said.chunk? with
  | none =>
    rw [hsaid] at h
    rw [show chunk = defaultChunk from h]
    decide
  | some text =>
    rw [hsaid] at h
    exact h.2.1

/-- The parts of all paths, or the samples if there is no path. -/
def TellsParts (types : MediaType.Lookup) (files : FileSystem) (said : Said) (parts : List Part) :
    Prop :=
  (said.paths = [] ∧ parts = Part.samples types) ∨
    (said.paths ≠ [] ∧ List.Forall₂ (Part.IsLoaded types files) (said.paths.map Utf8.encode) parts)

structure IsSound (files : FileSystem) (said : Said) : Prop where
  port : ∃ port, said.TellsPort port
  chunk : ∃ chunk, said.TellsChunk chunk
  paths : ∀ path ∈ said.paths, ∃ bytes, files (Utf8.encode path) = .content bytes

/-- The first mistake in what is said. -/
inductive Mistake (files : FileSystem) (said : Said) : SettingsError → Prop where
  | port {text : String} : said.port? = some text → (∀ n, ¬ said.TellsPort n) →
    Mistake files said (.invalidPort text)
  | chunk {port : Nat} {text : String} : said.TellsPort port → said.chunk? = some text →
    (∀ n, ¬ said.TellsChunk n) → Mistake files said (.invalidChunk text)
  | file {port chunk : Nat} {before after : List String} {path : String} {error : SettingsError} :
    said.TellsPort port → said.TellsChunk chunk → said.paths = before ++ path :: after →
    (∀ p ∈ before, ∃ bytes, files (Utf8.encode p) = .content bytes) →
    Part.Fails files (Utf8.encode path) error → Mistake files said error

end Said

/-- The settings are as said, and what is not said is the default. -/
structure AreAsSaid (settings : Settings) (types : MediaType.Lookup) (files : FileSystem)
    (said : Said) : Prop where
  host : settings.host = said.host?.getD defaultHost
  port : said.TellsPort settings.port
  chunk : said.TellsChunk settings.chunk
  chunk_pos : 0 < settings.chunk
  parts : said.TellsParts types files settings.parts

theorem Said.exists_tellsParts_iff {types : MediaType.Lookup} {files : FileSystem} {said : Said} :
    (∃ parts, said.TellsParts types files parts) ↔
      ∀ path ∈ said.paths, ∃ bytes, files (Utf8.encode path) = .content bytes := by
  have hloaded := @Part.exists_isLoaded_iff types files (said.paths.map Utf8.encode)
  rw [List.forall_mem_map] at hloaded
  rw [← hloaded]
  constructor
  · rintro ⟨parts, ⟨hnil, -⟩ | ⟨-, hparts⟩⟩
    · rw [hnil]
      exact ⟨[], .nil⟩
    · exact ⟨parts, hparts⟩
  · rintro ⟨parts, hparts⟩
    by_cases hnil : said.paths = []
    · exact ⟨_, .inl ⟨hnil, rfl⟩⟩
    · exact ⟨parts, .inr ⟨hnil, hparts⟩⟩

theorem exists_areAsSaid_iff {types : MediaType.Lookup} {files : FileSystem} {said : Said} :
    (∃ settings : Settings, settings.AreAsSaid types files said) ↔ said.IsSound files := by
  constructor
  · rintro ⟨settings, h⟩
    exact ⟨⟨_, h.port⟩, ⟨_, h.chunk⟩, Said.exists_tellsParts_iff.1 ⟨_, h.parts⟩⟩
  · rintro ⟨⟨port, hport⟩, ⟨chunk, hchunk⟩, hpaths⟩
    obtain ⟨parts, hparts⟩ := Said.exists_tellsParts_iff.2 hpaths
    exact ⟨⟨_, port, chunk, parts⟩, rfl, hport, hchunk, hchunk.pos, hparts⟩

variable {types : MediaType.Lookup} {files : FileSystem} {inv : Invocation} {args : List String} {segments : List Segment}
  {settings : Settings} {error : SettingsError} {n : Nat} {text : String} {parts : List Part}

/-! ### One thing at a time -/

theorem portOf_eq_ok_iff : portOf inv = .ok n ↔ (Said.ofInvocation inv).TellsPort n := by
  rw [portOf, Said.TellsPort, Said.ofInvocation]
  cases inv.get? "port" with
  | none =>
    rw [Except.ok.injEq]
    exact eq_comm
  | some text =>
    rw [Said.Tells, and_iff_right (Nat.zero_le n), ← Numeral.read_eq_ok_iff]
    cases hread : Numeral.read Numeral.portLimit text <;> simp [hread]

theorem portOf_eq_error_iff :
    portOf inv = .error error ↔ ∃ text, (Said.ofInvocation inv).port? = some text ∧
      (∀ n, ¬ (Said.ofInvocation inv).TellsPort n) ∧ error = .invalidPort text := by
  have hsaid : (Said.ofInvocation inv).port? = inv.get? "port" := rfl
  simp only [← portOf_eq_ok_iff, hsaid]
  rw [portOf]
  cases inv.get? "port" with
  | none => simp
  | some text => cases hread : Numeral.read Numeral.portLimit text <;> simp [hread, eq_comm]

theorem chunkOf_eq_ok_iff : chunkOf inv = .ok n ↔ (Said.ofInvocation inv).TellsChunk n := by
  rw [chunkOf, Said.TellsChunk, Said.ofInvocation]
  cases inv.get? "chunk-size" with
  | none =>
    rw [Except.ok.injEq]
    exact eq_comm
  | some text =>
    rw [Said.Tells, ← and_assoc, and_right_comm, ← Numeral.read_eq_ok_iff]
    cases hread : Numeral.read Numeral.sizeLimit text with
    | error reason => simp [hread]
    | ok size =>
      rw [Except.ok.injEq]
      cases size with
      | zero =>
        simp only [hread, reduceCtorEq, false_iff]
        omega
      | succ size =>
        simp only [hread, Except.ok.injEq]
        omega

theorem chunkOf_eq_error_iff :
    chunkOf inv = .error error ↔ ∃ text, (Said.ofInvocation inv).chunk? = some text ∧
      (∀ n, ¬ (Said.ofInvocation inv).TellsChunk n) ∧ error = .invalidChunk text := by
  have hsaid : (Said.ofInvocation inv).chunk? = inv.get? "chunk-size" := rfl
  simp only [← chunkOf_eq_ok_iff, hsaid]
  rw [chunkOf]
  cases inv.get? "chunk-size" with
  | none => simp
  | some text =>
    cases hread : Numeral.read Numeral.sizeLimit text with
    | error reason => simp [hread, eq_comm]
    | ok size => cases size <;> simp [hread, eq_comm]

theorem partsOf_eq_ok_iff :
    partsOf types files inv = .ok parts ↔ (Said.ofInvocation inv).TellsParts types files parts := by
  rw [partsOf, Said.TellsParts, Said.ofInvocation]
  cases hpaths : inv.values "files" with
  | nil =>
    rw [Except.ok.injEq]
    simp [eq_comm]
  | cons path paths => simp [← Part.load_eq_ok_iff]

theorem partsOf_eq_error_iff :
    partsOf types files inv = .error error ↔ ∃ before path after,
      (Said.ofInvocation inv).paths = before ++ path :: after ∧
        (∀ p ∈ before, ∃ bytes, files (Utf8.encode p) = .content bytes) ∧
          Part.Fails files (Utf8.encode path) error := by
  have hsaid : (Said.ofInvocation inv).paths = inv.values "files" := rfl
  rw [hsaid, partsOf]
  cases inv.values "files" with
  | nil => simp
  | cons path paths =>
    simp only [Part.load_eq_error_iff]
    constructor
    · rintro ⟨before, bad, after, hpaths, hbefore, hfails⟩
      obtain ⟨front, back, hfront, rfl, hback⟩ := List.map_eq_append_iff.1 hpaths
      obtain ⟨first, more, rfl, rfl, rfl⟩ := List.map_eq_cons_iff.1 hback
      exact ⟨front, first, more, hfront, fun p hp => hbefore _ (List.mem_map_of_mem hp), hfails⟩
    · rintro ⟨before, bad, after, hpaths, hbefore, hfails⟩
      refine ⟨before.map Utf8.encode, _, after.map Utf8.encode, ?_, ?_, hfails⟩
      · rw [hpaths, List.map_append, List.map_cons]
      · exact List.forall_mem_map.2 hbefore

/-! ### All together -/

theorem ofInvocation_eq_ok_iff :
    ofInvocation types files inv = .ok settings ↔
      settings.AreAsSaid types files (Said.ofInvocation inv) := by
  constructor
  · intro h
    rw [ofInvocation] at h
    split at h
    · cases h
    · next port hport =>
      split at h
      · cases h
      · next chunk hchunk =>
        split at h
        · cases h
        · next parts hparts =>
          cases h
          have htold := chunkOf_eq_ok_iff.1 hchunk
          exact ⟨rfl, portOf_eq_ok_iff.1 hport, htold, htold.pos, partsOf_eq_ok_iff.1 hparts⟩
  · intro h
    rw [ofInvocation, portOf_eq_ok_iff.2 h.port, chunkOf_eq_ok_iff.2 h.chunk,
      partsOf_eq_ok_iff.2 h.parts]
    cases settings
    exact congrArg (fun host => Except.ok (Settings.mk host _ _ _)) h.host.symm

theorem ofInvocation_eq_error_iff :
    ofInvocation types files inv = .error error ↔ (Said.ofInvocation inv).Mistake files error := by
  constructor
  · intro h
    rw [ofInvocation] at h
    split at h
    · next hport =>
      cases h
      obtain ⟨text, htext, hnone, rfl⟩ := portOf_eq_error_iff.1 hport
      exact .port htext hnone
    · next port hport =>
      have htoldPort := portOf_eq_ok_iff.1 hport
      split at h
      · next hchunk =>
        cases h
        obtain ⟨text, htext, hnone, rfl⟩ := chunkOf_eq_error_iff.1 hchunk
        exact .chunk htoldPort htext hnone
      · next chunk hchunk =>
        have htoldChunk := chunkOf_eq_ok_iff.1 hchunk
        split at h
        · next hparts =>
          cases h
          obtain ⟨before, path, after, hpaths, hbefore, hfails⟩ := partsOf_eq_error_iff.1 hparts
          exact .file htoldPort htoldChunk hpaths hbefore hfails
        · cases h
  · intro h
    rw [ofInvocation]
    cases h with
    | port htext hnone => rw [portOf_eq_error_iff.2 ⟨_, htext, hnone, rfl⟩]
    | chunk hport htext hnone =>
      rw [portOf_eq_ok_iff.2 hport, chunkOf_eq_error_iff.2 ⟨_, htext, hnone, rfl⟩]
    | file hport hchunk hpaths hbefore hfails =>
      rw [portOf_eq_ok_iff.2 hport, chunkOf_eq_ok_iff.2 hchunk,
        partsOf_eq_error_iff.2 ⟨_, _, _, hpaths, hbefore, hfails⟩]

theorem ofInvocation_congr {other : Invocation}
    (h : Said.ofInvocation inv = Said.ofInvocation other) (types : MediaType.Lookup)
    (files : FileSystem) :
    ofInvocation types files inv = ofInvocation types files other := by
  cases hresult : ofInvocation types files other with
  | ok settings =>
    rw [ofInvocation_eq_ok_iff, h]
    exact ofInvocation_eq_ok_iff.1 hresult
  | error error =>
    rw [ofInvocation_eq_error_iff, h]
    exact ofInvocation_eq_error_iff.1 hresult

/-- What is understood of a command line says what its segments say. -/
theorem Said.ofInvocation_eq {further : List String} (h : inv.Records rules segments further) :
    Said.ofInvocation inv = Said.ofSegments segments := by
  have hlast : ∀ rule ∈ rules, rule.many = false →
      inv.get? rule.name = lastValue? rule.name segments := by
    intro rule hrule hone
    rw [Invocation.get?, h.single rule hrule hone, lastValue?]
    cases (segments.filterMap (Segment.values? rule.name)).getLast? <;> rfl
  have hhost := hlast ⟨"host", ["H"], false⟩ (by decide) rfl
  have hport := hlast ⟨"port", ["p"], false⟩ (by decide) rfl
  have hchunk := hlast ⟨"chunk-size", ["c"], false⟩ (by decide) rfl
  have hpaths := h.many ⟨"files", ["f"], true⟩ (by decide) rfl
  rw [ofInvocation, hhost, hport, hchunk, hpaths]
  rfl

theorem nodup_rules : (rules.map OptionRule.name).Nodup := by decide

/-- A command line that is a sequence of segments makes the settings that these say. -/
theorem ofArgs_of_segmented (h : Segmented rules (cutAtEnd args).1 segments)
    (types : MediaType.Lookup) (files : FileSystem) :
    ∃ inv, ofArgs types files args = ofInvocation types files inv ∧
      Said.ofInvocation inv = Said.ofSegments segments := by
  have hrecords := Invocation.records_foldl nodup_rules h (cutAtEnd args).2
  refine ⟨_, ?_, Said.ofInvocation_eq hrecords⟩
  rw [ofArgs, parse_of_segmented h]

theorem ofArgs_eq_ok_of_segmented (h : Segmented rules (cutAtEnd args).1 segments) :
    ofArgs types files args = .ok settings ↔ settings.AreAsSaid types files (Said.ofSegments segments) := by
  obtain ⟨inv, hresult, hsaid⟩ := ofArgs_of_segmented h types files
  rw [hresult, ofInvocation_eq_ok_iff, hsaid]

theorem ofArgs_eq_error_of_segmented (h : Segmented rules (cutAtEnd args).1 segments) :
    ofArgs types files args = .error error ↔ (Said.ofSegments segments).Mistake files error := by
  obtain ⟨inv, hresult, hsaid⟩ := ofArgs_of_segmented h types files
  rw [hresult, ofInvocation_eq_error_iff, hsaid]

theorem ofArgs_of_usage {usage : UsageError} (h : parse rules args = .error usage) :
    ofArgs types files args = .error (.usage usage) := by
  rw [ofArgs, h]

theorem usage_or_segmented (args : List String) :
    (∃ usage, parse rules args = .error usage) ∨
      ∃ segments, Segmented rules (cutAtEnd args).1 segments := by
  cases h : parse rules args with
  | error usage => exact .inl ⟨usage, rfl⟩
  | ok inv => exact .inr (parse_ok_iff.1 ⟨inv, h⟩)

theorem ofArgs_eq_ok_iff :
    ofArgs types files args = .ok settings ↔
      ∃ segments, Segmented rules (cutAtEnd args).1 segments ∧
        settings.AreAsSaid types files (Said.ofSegments segments) := by
  constructor
  · intro hok
    rcases usage_or_segmented args with ⟨usage, husage⟩ | ⟨segments, hsegments⟩
    · rw [ofArgs_of_usage husage] at hok
      cases hok
    · exact ⟨segments, hsegments, (ofArgs_eq_ok_of_segmented hsegments).1 hok⟩
  · rintro ⟨segments, hsegments, hok⟩
    exact (ofArgs_eq_ok_of_segmented hsegments).2 hok

theorem ofArgs_eq_error_iff :
    ofArgs types files args = .error error ↔
      (∃ usage, parse rules args = .error usage ∧ error = .usage usage) ∨
        ∃ segments, Segmented rules (cutAtEnd args).1 segments ∧
          (Said.ofSegments segments).Mistake files error := by
  constructor
  · intro herror
    rcases usage_or_segmented args with ⟨usage, husage⟩ | ⟨segments, hsegments⟩
    · rw [ofArgs_of_usage husage] at herror
      exact .inl ⟨usage, husage, (Except.error.inj herror).symm⟩
    · exact .inr ⟨segments, hsegments, (ofArgs_eq_error_of_segmented hsegments).1 herror⟩
  · rintro (⟨usage, husage, rfl⟩ | ⟨segments, hsegments, hmistake⟩)
    · exact ofArgs_of_usage husage
    · exact (ofArgs_eq_error_of_segmented hsegments).2 hmistake

/-- Settings are made exactly of a command line that is understood, names a good port and a good
size, if any, and only files that can be read; they are what was said last, with one part a path.
Else the first mistake is reported: one in the options, then the port, the size, and the first bad
path. So command lines that say the same make the same settings or the same mistake. -/
theorem ofArgs_said (types : MediaType.Lookup) (files : FileSystem) (args : List String) :
    ((∃ settings, ofArgs types files args = .ok settings) ↔
        ∃ segments, Segmented rules (cutAtEnd args).1 segments ∧
          (Said.ofSegments segments).IsSound files) ∧
      (∀ settings, ofArgs types files args = .ok settings ↔
        ∃ segments, Segmented rules (cutAtEnd args).1 segments ∧
          settings.AreAsSaid types files (Said.ofSegments segments)) ∧
      (∀ error, ofArgs types files args = .error error ↔
        (∃ usage, parse rules args = .error usage ∧ error = .usage usage) ∨
          ∃ segments, Segmented rules (cutAtEnd args).1 segments ∧
            (Said.ofSegments segments).Mistake files error) ∧
      ∀ (others : List String) (segments segments' : List Segment),
        Segmented rules (cutAtEnd args).1 segments →
          Segmented rules (cutAtEnd others).1 segments' →
            Said.ofSegments segments = Said.ofSegments segments' →
              ofArgs types files args = ofArgs types files others := by
  refine ⟨⟨?_, ?_⟩, fun settings => ofArgs_eq_ok_iff, fun error => ofArgs_eq_error_iff, ?_⟩
  · rintro ⟨settings, hok⟩
    obtain ⟨segments, hsegments, hsaid⟩ := ofArgs_eq_ok_iff.1 hok
    exact ⟨segments, hsegments, exists_areAsSaid_iff.1 ⟨settings, hsaid⟩⟩
  · rintro ⟨segments, hsegments, hsound⟩
    obtain ⟨settings, hsaid⟩ := exists_areAsSaid_iff.2 hsound
    exact ⟨settings, ofArgs_eq_ok_iff.2 ⟨segments, hsegments, hsaid⟩⟩
  · intro others segments segments' hsegments hothers hsaid
    obtain ⟨inv, hresult, hinv⟩ := ofArgs_of_segmented hsegments types files
    obtain ⟨other, hother, hotherInv⟩ := ofArgs_of_segmented hothers types files
    rw [hresult, hother]
    exact ofInvocation_congr (hinv.trans (hsaid.trans hotherInv.symm)) types files

end Settings

end WireBench
