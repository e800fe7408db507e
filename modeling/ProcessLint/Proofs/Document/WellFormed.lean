import ProcessLint.Proofs.Decimal.Layout
import ProcessLint.Proofs.Document.Names
import ProcessLint.Proofs.Document.Reading
import ProcessLint.Proofs.Text.Trim

/-!
What may be relied on of every document that was read, whatever its text is: the names, the files
and the version are fit for use, and a document without a root declares nothing. The bytes and the
lines are those of the input.
-/
namespace ProcessLint

open Text

namespace Declarations

variable {declared : Declarations} {text : List Char}

/-- A version is cut at both ends if it is a string; as a number or a flag it has no white space. -/
theorem versionOf_isTrimmed {v : Option Yaml.Value} {version : String}
    (h : versionOf v = .ok version) : IsTrimmed version.toList := by
  unfold versionOf at h
  split at h
  · cases h
    exact isTrimmed_of_forall (by simp)
  · cases h
    exact isTrimmed_of_forall (by simp)
  · rename_i s
    cases h
    unfold String.trimSpace
    rw [String.toList_ofList]
    exact isTrimmed_trim s.toList
  · rename_i n
    cases h
    exact isTrimmed_of_forall n.isSpace_of_mem_text
  · rename_i b
    cases h
    refine isTrimmed_of_forall ?_
    cases b <;> simp [isSpace, toString]
  · cases h

theorem processes_spec (h : ofText text = .ok declared) {p : Process}
    (hp : p ∈ declared.processes) : p.name ≠ "" ∧ (p.dependsOn.map (·.name)).Nodup := by
  obtain ⟨raw, hraw, -, -, hprocesses⟩ := exists_raw_of_ofText h
  obtain ⟨entry, hentry, hentryOf⟩ := exists_of_mem_mapM hprocesses hp
  obtain ⟨-, hname, hprocess⟩ := processOf_spec hentryOf
  have hdistinct : (Yaml.Value.mapping (raw.processes.getD [])).DistinctKeys :=
    RawDocument.ofText_distinctKeys hraw
  cases hdistinct with
  | mapping _ _ hvalues => exact ⟨hname, Decode.nodup_dependsOn (hvalues entry hentry) hprocess⟩

theorem exists_ink_of_mem_envFiles (h : ofText text = .ok declared) {file : String}
    (hfile : file ∈ declared.envFiles) : ∃ c ∈ file.toList, isSpace c = false := by
  obtain ⟨raw, -, -, hfiles, -⟩ := exists_raw_of_ofText h
  rw [hfiles, List.mem_filter] at hfile
  simpa [String.isBlank, isBlank] using hfile.2

end Declarations

namespace Document

theorem intercalate_lines (doc : Document) : "\n".intercalate doc.lines = doc.text := by
  have hchars : doc.lines.map String.toList = doc.text.toList.splitOn '\n' := by
    unfold lines
    rw [List.map_map]
    exact List.map_id'' (fun _ => String.toList_ofList) _
  rw [← String.toList_inj, String.toList_intercalate, hchars]
  exact List.intercalate_splitOn '\n'

structure IsWellFormed (doc : Document) : Prop where
  named : ∀ p ∈ doc.processes, p.name ≠ ""
  names : (doc.processes.map (·.name)).Nodup
  dependencies : ∀ p ∈ doc.processes, (p.dependsOn.map (·.name)).Nodup
  /-- No file is blank. -/
  envFiles : ∀ file ∈ doc.envFiles, ∃ c ∈ file.toList, isSpace c = false
  version : IsTrimmed doc.version.toList
  /-- Where there is no root, nothing is declared. -/
  absent : ∀ events, Yaml.Outline.read doc.text.toList = .ok events →
    (SourceMap.ofEvents events).1 = .absent →
    doc.version = "" ∧ doc.envFiles = [] ∧ doc.processes = []

theorem isWellFormed_of_isRead {doc : Document} (h : doc.IsRead) : doc.IsWellFormed := by
  obtain ⟨events, hevents, ⟨-, hempty⟩ | ⟨hroot, hdeclared⟩⟩ := exists_root_of_ofText h
  · obtain ⟨hversion, hfiles, hprocesses⟩ := Declarations.mk.inj hempty
    constructor
    case named => simp [hprocesses]
    case names => simp [hprocesses]
    case dependencies => simp [hprocesses]
    case envFiles => simp [hfiles]
    case version =>
      rw [hversion]
      exact isTrimmed_of_forall (by simp)
    case absent => exact fun _ _ _ => ⟨hversion, hfiles, hprocesses⟩
  · constructor
    case named => exact fun p hp => (Declarations.processes_spec hdeclared hp).1
    case names => exact Declarations.ofText_nodup hdeclared
    case dependencies => exact fun p hp => (Declarations.processes_spec hdeclared hp).2
    case envFiles =>
      exact fun file hfile => Declarations.exists_ink_of_mem_envFiles hdeclared hfile
    case version =>
      obtain ⟨raw, -, hversion, -, -⟩ := Declarations.exists_raw_of_ofText hdeclared
      exact Declarations.versionOf_isTrimmed hversion
    case absent =>
      intro other hother habsent
      rw [hevents] at hother
      cases hother
      rw [hroot] at habsent
      cases habsent

/-- A document that is read from bytes keeps them, and it is well formed. -/
theorem parse_isWellFormed {path : String} {bytes : ByteArray} {doc : Document}
    (h : parse path bytes = .ok doc) :
    doc.path = path ∧ doc.text.toUTF8 = bytes ∧ "\n".intercalate doc.lines = doc.text ∧
      doc.IsWellFormed := by
  obtain ⟨hread, hpath, hbytes⟩ := parse_eq_ok.mp h
  exact ⟨hpath, hbytes, doc.intercalate_lines, isWellFormed_of_isRead hread⟩

section Example

set_option maxRecDepth 20000

/-- A version with white space around it, a blank file, and a process with two dependencies. -/
def webStack : Document where
  path := "p"
  version := "0.5"
  envFiles := [".env"]
  text := "version: \" 0.5 \"\nenv_file: [.env, ' ']\nprocesses:\n  web:\n" ++
    "    depends_on: \x7bdb: , cache: \x7bcondition: process_healthy\x7d\x7d\n  db: ~\n"
  sourceMap := ⟨[(["version"], ⟨1, 1⟩), (["env_file"], ⟨2, 1⟩), (["env_file", "0"], ⟨2, 12⟩),
    (["env_file", "1"], ⟨2, 18⟩), (["processes"], ⟨3, 1⟩), (["processes", "web"], ⟨4, 3⟩),
    (["processes", "web", "depends_on"], ⟨5, 5⟩),
    (["processes", "web", "depends_on", "db"], ⟨5, 18⟩),
    (["processes", "web", "depends_on", "cache"], ⟨5, 24⟩),
    (["processes", "web", "depends_on", "cache", "condition"], ⟨5, 32⟩),
    (["processes", "db"], ⟨6, 3⟩)]⟩
  processes := [{ Process.named "web" with dependsOn := [⟨"db", .started⟩, ⟨"cache", .healthy⟩] },
    .named "db"]

theorem parse_isWellFormed_webStack :
    parse "p" webStack.text.toUTF8 = .ok webStack ∧ webStack.IsWellFormed ∧
      "\n".intercalate webStack.lines = webStack.text := by
  have hread : webStack.IsRead := by
    rw [isRead_iff_toOption]
    decide +kernel
  have hparse : parse "p" webStack.text.toUTF8 = .ok webStack :=
    parse_eq_ok.mpr ⟨hread, rfl, rfl⟩
  obtain ⟨-, -, hlines, hwellFormed⟩ := parse_isWellFormed hparse
  exact ⟨hparse, hwellFormed, hlines⟩

end Example

end Document

end ProcessLint
