import ProcessLint.Proofs.Command.Answers

/-!
What a run leaves of the files. There is one way to a write: the rules are known, the document was
read, something was fixed and no check was asked for. The run then ends well, and what stands in
the file behind it is the outcome of fixing what stood there.
-/
namespace ProcessLint

namespace Command

/-- Only formatting without a check writes, and what it writes is the fixed document. -/
theorem written?_answer {environment : Option String} {contents : Contents} {command : Command}
    {content : String} (h : (command.answer environment contents).ending.written? = some content) :
    ∃ file disabled set doc, command = .fmt file disabled false ∧
      Begins (path file environment) disabled contents set doc ∧
      content = (doc.runFixes set.fixes).content := by
  cases command with
  | lint file disabled format =>
    exfalso
    have hlint : (lintAnswer (path file environment) disabled format contents).ending.written? =
        some content := h
    rcases isBlocked_or_begins (path file environment) disabled contents with
      hblocked | ⟨set, doc, hbegins⟩
    · obtain ⟨reasons, hfailed⟩ := lintAnswer_of_isBlocked hblocked format
      rw [hfailed] at hlint
      cases hlint
    · rw [(lintAnswer_of_begins hbegins format).2] at hlint
      split at hlint <;> cases hlint
  | fmt file disabled check =>
    have hfmt : (fmtAnswer (path file environment) disabled check contents).ending.written? =
        some content := h
    rcases isBlocked_or_begins (path file environment) disabled contents with
      hblocked | ⟨set, doc, hbegins⟩
    · obtain ⟨reasons, hfailed⟩ := fmtAnswer_of_isBlocked hblocked check
      rw [hfailed] at hfmt
      cases hfmt
    · rw [(fmtAnswer_of_begins hbegins check).2] at hfmt
      split at hfmt
      · cases hfmt
      · split at hfmt
        · cases hfmt
        · rename_i hcheck
          cases hfmt
          exact ⟨file, disabled, set, doc, by simp [hcheck], hbegins, rfl⟩
  | graph file format process =>
    exfalso
    have hgraph : (graphAnswer (path file environment) format process contents).ending.written? =
        some content := h
    unfold graphAnswer at hgraph
    split at hgraph
    · cases hgraph
    · split at hgraph <;> cases hgraph
  | rules => cases h

end Command

namespace FileSystem

variable {fs : FileSystem} {environment : Environment} {arguments : List String}

section Paths

theorem names_append_slash (path : String) : names (path ++ "/") = names path ++ [""] := by
  have hslash : (path ++ "/").toList = path.toList ++ '/' :: [] := by
    rw [String.toList_append]
    rfl
  unfold names
  rw [hslash, List.splitOn_eq_splitOnP, List.splitOnP_append_cons _ _ (by simp), List.map_append]
  rfl

theorem enter_eq_ok {here : Location} (h : fs.enter here = .ok ()) :
    fs.nodeAt? here = some .directory := by
  unfold enter at h
  split at h
  · assumption
  · cases h
  · cases h
  · cases h

/-- An empty name at the end asks for a directory. -/
theorem nodeAt?_walk {links : Nat} {here there : Location} {list : List String}
    (h : fs.walk links here list = .ok there) (hlast : list.getLast? = some "") :
    fs.nodeAt? there = some .directory := by
  fun_induction walk fs links here list with
  | case1 => cases hlast
  | case2 links here name rest hstay hup hlink hdown =>
    obtain ⟨⟨⟩, henter, h⟩ := bind_eq_ok h
    have hbehind (hname : name ≠ "") : rest.getLast? = some "" := by
      cases rest with
      | nil => simp_all
      | cons => simpa using hlast
    by_cases hnone : name = "" ∨ name = "."
    · rw [if_pos hnone] at h
      cases rest with
      | nil =>
        rw [walk] at h
        cases h
        exact enter_eq_ok henter
      | cons next rest => exact hstay h (by simpa using hlast)
    · rw [if_neg hnone] at h
      have hrest := hbehind fun hname => hnone (.inl hname)
      split at h
      · exact hup h hrest
      · split at h
        · cases h
        · rename_i target _
          split at h
          · cases h
          · rename_i hlinks
            refine hlink target hlinks h ?_
            rw [List.getLast?_append, hrest, Option.some_or]
        · exact hdown h hrest

/-- A path with a slash behind it does not lead to a file. -/
theorem target_slash (path : String) (number : Nat) : fs.target (path ++ "/") ≠ .ok number := by
  intro h
  unfold target at h
  obtain ⟨there, hthere, h⟩ := bind_eq_ok h
  obtain ⟨⟨⟩, -, h⟩ := bind_eq_ok h
  have hdirectory : fs.nodeAt? there = some .directory := by
    unfold resolve at hthere
    split at hthere
    · cases hthere
    · refine nodeAt?_walk hthere ?_
      rw [names_append_slash, List.getLast?_concat]
  rw [hdirectory] at h
  cases h

end Paths

theorem read_eq_ok {path : String} {bytes : ByteArray} :
    fs.read path = .ok bytes ↔ ∃ number, fs.target path = .ok number ∧ fs.content number = bytes := by
  unfold read
  cases fs.target path with
  | error fault => simp
  | ok number => simp

section Write

variable {path : String} {number : Nat}

/-- Writing changes one file at most, and nothing else. -/
theorem write_eq (fs : FileSystem) (path : String) (content : ByteArray) :
    fs.write path content = { fs with content := (fs.write path content).content } := by
  unfold write
  split <;> rfl

theorem content_write (h : fs.target path = .ok number) (content : ByteArray) (other : Nat) :
    (fs.write path content).content other =
      if other = number then content else fs.content other := by
  unfold write
  rw [h]

/-- Writing what stands in a file already changes nothing. -/
theorem write_of_read {bytes : ByteArray} (h : fs.read path = .ok bytes) :
    fs.write path bytes = fs := by
  obtain ⟨number, htarget, rfl⟩ := read_eq_ok.mp h
  have hsame : (fs.write path (fs.content number)).content = fs.content := by
    funext other
    rw [content_write htarget]
    split <;> simp [*]
  rw [write_eq, hsame]

end Write

/-- Only formatting without a check writes. -/
theorem run_of_not_fmt (h : ∀ verbosity file disabled,
    Request.ofArguments arguments ≠ .ok ⟨verbosity, .fmt file disabled false⟩) :
    (fs.run environment arguments).2 = fs := by
  unfold run
  cases hrequest : Request.ofArguments arguments with
  | error notice => rfl
  | ok request =>
    obtain ⟨verbosity, command⟩ := request
    dsimp only
    split
    · rename_i hwritten
      obtain ⟨file, disabled, -, -, rfl, -⟩ := Command.written?_answer hwritten
      exact absurd hrequest (h verbosity file disabled)
    · rfl

/-- Formatting without a check fails, or its file gets what fixing comes to. -/
theorem run_fmt (fs : FileSystem) (environment : Environment) {verbosity : Nat}
    {file : Option String} {disabled : List String}
    (hrequest : Request.ofArguments arguments = .ok ⟨verbosity, .fmt file disabled false⟩) :
    let path := Command.path file environment.file
    ((fs.run environment arguments).1.code ≠ 0 ∧ (fs.run environment arguments).2 = fs) ∨
      ∃ set doc, Command.Begins path disabled (fs.read path) set doc ∧
        (fs.run environment arguments).1.code = 0 ∧
        (fs.run environment arguments).2 =
          fs.write path (doc.runFixes set.fixes).content.toUTF8 := by
  intro path
  have hcode : (fs.run environment arguments).1.code =
      (Command.fmtAnswer path disabled false (fs.read path)).ending.code := by
    unfold run
    rw [hrequest]
    rfl
  have hafter : (fs.run environment arguments).2 =
      (Command.fmtAnswer path disabled false (fs.read path)).ending.written?.elim fs
        fun content => fs.write path content.toUTF8 := by
    unfold run
    rw [hrequest]
    dsimp only [Request.file?, Request.answer, Command.file?, Command.answer]
    cases (Command.fmtAnswer path disabled false (fs.read path)).ending.written? <;> rfl
  rw [hcode, hafter]
  rcases Command.isBlocked_or_begins path disabled (fs.read path) with
    hblocked | ⟨set, doc, hbegins⟩
  · obtain ⟨reasons, hfailed⟩ := Command.fmtAnswer_of_isBlocked hblocked false
    rw [hfailed]
    exact .inl ⟨by simp [Ending.code], rfl⟩
  · refine .inr ⟨set, doc, hbegins, ?_⟩
    rw [(Command.fmtAnswer_of_begins hbegins false).2]
    cases hchanged : (doc.runFixes set.fixes).changed with
    | true => exact ⟨rfl, rfl⟩
    | false =>
      obtain ⟨bytes, hread, hparse⟩ := hbegins.parse
      have hkept : (doc.runFixes set.fixes).content.toUTF8 = bytes := by
        rw [FixReport.content, Document.runFixes_unchanged hchanged,
          (Document.parse_eq_ok.mp hparse).2.2]
      rw [hkept, write_of_read hread]
      exact ⟨rfl, rfl⟩

/-- Two contents of a file that both read as documents, with the same processes. -/
def SameProcesses (path : String) (old new : ByteArray) : Prop :=
  ∃ before after, Document.parse path old = .ok before ∧ Document.parse path new = .ok after ∧
    after.processes.Perm before.processes

/-- What a run does to the files. -/
structure IsHarmless (fs : FileSystem) (environment : Environment) (arguments : List String)
    (exit : Exit) (after : FileSystem) : Prop where
  /-- Nothing is made, moved or removed. -/
  places : after = { fs with content := after.content }
  /-- A file that changes is the one that formatting without a check was asked for, and it keeps
  its processes. -/
  changed : ∀ number, after.content number ≠ fs.content number → exit.code = 0 ∧
    ∃ verbosity file disabled,
      Request.ofArguments arguments = .ok ⟨verbosity, .fmt file disabled false⟩ ∧
      fs.target (Command.path file environment.file) = .ok number ∧
      SameProcesses (Command.path file environment.file) (fs.content number)
        (after.content number)
  /-- Whether it changes or not, what stands in that file is the outcome of fixing it. -/
  formatted : ∀ verbosity file disabled,
    Request.ofArguments arguments = .ok ⟨verbosity, .fmt file disabled false⟩ → exit.code = 0 →
    ∃ number set report, fs.target (Command.path file environment.file) = .ok number ∧
      RuleSet.all.without disabled = .ok set ∧
      set.fix (Command.path file environment.file) (fs.content number) = .ok report ∧
      after.content number = report.content.toUTF8 ∧
      SameProcesses (Command.path file environment.file) (fs.content number)
        (after.content number)
  failed : exit.code ≠ 0 → after = fs
  reading : (∀ verbosity file disabled,
    Request.ofArguments arguments ≠ .ok ⟨verbosity, .fmt file disabled false⟩) → after = fs

section Harmless

variable {exit : Exit} {after : FileSystem}

/-- A run that leaves everything as it was, and that failed or had nothing to format. -/
theorem isHarmless_of_same (h : exit.code ≠ 0 ∨ ∀ verbosity file disabled,
    Request.ofArguments arguments ≠ .ok ⟨verbosity, .fmt file disabled false⟩) :
    IsHarmless fs environment arguments exit fs where
  places := rfl
  changed _ hchanged := absurd rfl hchanged
  formatted verbosity file disabled hrequest hcode := by
    rcases h with hfailed | hother
    · exact absurd hcode hfailed
    · exact absurd hrequest (hother verbosity file disabled)
  failed _ := rfl
  reading _ := rfl

/-- A run that leaves the fixed document in the file it was read from. -/
theorem isHarmless_of_formatted {verbosity : Nat} {file : Option String} {disabled : List String}
    {set : RuleSet} {doc : Document}
    (hrequest : Request.ofArguments arguments = .ok ⟨verbosity, .fmt file disabled false⟩)
    (hbegins : Command.Begins (Command.path file environment.file) disabled
      (fs.read (Command.path file environment.file)) set doc)
    (hcode : exit.code = 0)
    (hafter : after = fs.write (Command.path file environment.file)
      (doc.runFixes set.fixes).content.toUTF8) :
    IsHarmless fs environment arguments exit after := by
  obtain ⟨bytes, hread, hparse⟩ := hbegins.parse
  obtain ⟨number, htarget, rfl⟩ := read_eq_ok.mp hread
  have hcontent : ∀ other, after.content other =
      if other = number then (doc.runFixes set.fixes).content.toUTF8 else fs.content other := by
    rw [hafter]
    exact content_write htarget _
  have hfixed : after.content number = (doc.runFixes set.fixes).content.toUTF8 := by
    rw [hcontent, if_pos rfl]
  have hsame : SameProcesses (Command.path file environment.file) (fs.content number)
      (after.content number) := by
    rw [hfixed]
    have hrewrite := Document.isRewrite_runFixes set.fixes doc (Document.parse_eq_ok.mp hparse).1
    exact ⟨doc, _, hparse, Document.parse_content hparse set.fixes, hrewrite.processes⟩
  constructor
  case places =>
    rw [hafter]
    exact write_eq ..
  case changed =>
    intro other hchanged
    have hother : other = number := by
      by_contra hne
      rw [hcontent, if_neg hne] at hchanged
      exact hchanged rfl
    subst hother
    exact ⟨hcode, verbosity, file, disabled, hrequest, htarget, hsame⟩
  case formatted =>
    intro verbosity' file' disabled' hagain _
    rw [hrequest] at hagain
    cases hagain
    exact ⟨number, set, _, htarget, hbegins.rules, set.fix_of_parse hparse, hfixed, hsame⟩
  case failed =>
    intro hfailed
    exact absurd hcode hfailed
  case reading =>
    intro hother
    exact absurd hrequest (hother verbosity file disabled)

end Harmless

/-- No run damages a file. -/
theorem run_harmless (fs : FileSystem) (environment : Environment) (arguments : List String) :
    IsHarmless fs environment arguments (fs.run environment arguments).1
      (fs.run environment arguments).2 := by
  by_cases hfmt : ∃ verbosity file disabled,
      Request.ofArguments arguments = .ok ⟨verbosity, .fmt file disabled false⟩
  · obtain ⟨verbosity, file, disabled, hrequest⟩ := hfmt
    rcases run_fmt fs environment hrequest with
      ⟨hcode, hafter⟩ | ⟨set, doc, hbegins, hcode, hafter⟩
    · rw [hafter]
      exact isHarmless_of_same (.inl hcode)
    · exact isHarmless_of_formatted hrequest hbegins hcode hafter
  · have hother := fun verbosity file disabled h => hfmt ⟨verbosity, file, disabled, h⟩
    rw [run_of_not_fmt hother]
    exact isHarmless_of_same (.inr hother)

end FileSystem

end ProcessLint
