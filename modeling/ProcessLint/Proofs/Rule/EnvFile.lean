import ProcessLint.Proofs.Document.Environment
import ProcessLint.Proofs.Document.Reading
import ProcessLint.Proofs.Rule.Reports

/-!
Documents that use variables and name no file that defines them. The check searches every text of a
process in which variables are expanded, but for the HTTP request of a probe that has a command
too: of such a probe only the command is searched.
-/
namespace ProcessLint

/-- The first process of which something holds. -/
def Document.IsFirst (doc : Document) (holds : Process → Prop) (p : Process) : Prop :=
  ∃ before behind, doc.processes = before ++ p :: behind ∧ holds p ∧ ∀ q ∈ before, ¬ holds q

namespace Document.IsFirst

variable {doc : Document} {holds : Process → Prop} {test : Process → Bool} {p q : Process}

/-- A test that decides what is asked finds the first process. -/
theorem iff_find? (h : ∀ p, test p = true ↔ holds p) :
    doc.IsFirst holds p ↔ doc.processes.find? test = some p := by
  have hbefore : ∀ before : List Process,
      (∀ q ∈ before, (!test q) = true) ↔ ∀ q ∈ before, ¬ holds q := by
    simp [← h]
  simp only [IsFirst, List.find?_eq_some_iff_append, hbefore, h]
  constructor
  · rintro ⟨before, behind, hprocesses, hp, hnot⟩
    exact ⟨hp, before, behind, hprocesses, hnot⟩
  · rintro ⟨hp, before, behind, hprocesses, hnot⟩
    exact ⟨before, behind, hprocesses, hp, hnot⟩

theorem unique (hp : doc.IsFirst holds p) (hq : doc.IsFirst holds q) : p = q := by
  classical
  have hdecide : ∀ p, decide (holds p) = true ↔ holds p := fun _ => decide_eq_true_iff
  exact Option.some.inj (((iff_find? hdecide).mp hp).symm.trans ((iff_find? hdecide).mp hq))

theorem spec (h : doc.IsFirst holds p) : p ∈ doc.processes ∧ holds p := by
  obtain ⟨before, behind, hprocesses, hp, -⟩ := h
  exact ⟨by simp [hprocesses], hp⟩

theorem exists_of_mem (hmem : p ∈ doc.processes) (hp : holds p) : ∃ q, doc.IsFirst holds q := by
  classical
  have hdecide : ∀ p, decide (holds p) = true ↔ holds p := fun _ => decide_eq_true_iff
  have hsome : (doc.processes.find? fun p => decide (holds p)).isSome :=
    List.find?_isSome.mpr ⟨p, hmem, (hdecide p).mpr hp⟩
  obtain ⟨q, hq⟩ := Option.isSome_iff_exists.mp hsome
  exact ⟨q, (iff_find? hdecide).mpr hq⟩

end Document.IsFirst

namespace Environment

/-- Texts that a process is started with, or probed with by a command. -/
inductive RunsWith (p : Process) : String → Prop
  | command : RunsWith p p.command
  | value {entry key value : String} : entry ∈ p.environment → Process.Assigns entry key value →
      RunsWith p value
  | exec {probe : ReadinessProbe} {exec : ExecProbe} : p.readinessProbe = some probe →
      probe.exec = some exec → RunsWith p exec.command

/-- Texts that the HTTP request of a probe is made with. -/
inductive RequestsWith (p : Process) : String → Prop
  | host {probe : ReadinessProbe} {http : HttpProbe} {host : String} :
      p.readinessProbe = some probe → probe.httpGet = some http → http.host = some host →
      RequestsWith p host
  | port {probe : ReadinessProbe} {http : HttpProbe} {port : NumberOrText} :
      p.readinessProbe = some probe → probe.httpGet = some http → http.port = some port →
      RequestsWith p port.toText
  | path {probe : ReadinessProbe} {http : HttpProbe} {path : String} :
      p.readinessProbe = some probe → probe.httpGet = some http → http.path = some path →
      RequestsWith p path

/-- A probe of the process has a command. -/
def HasExec (p : Process) : Prop := ∃ probe ∈ p.readinessProbe, ∃ exec, probe.exec = some exec

def UsesVariable (p : Process) : Prop :=
  ∃ text, (RunsWith p text ∨ RequestsWith p text) ∧ usesSubstitution text = true

/-- The same for what is searched: beside a command the request is passed over. -/
def ShowsVariable (p : Process) : Prop :=
  ∃ text, (RunsWith p text ∨ ¬ HasExec p ∧ RequestsWith p text) ∧ usesSubstitution text = true

variable {doc : Document} {p : Process} {text : String}

section Fields

theorem runsWith_iff : RunsWith p text ↔ text = p.command ∨
    text ∈ p.environmentPairs.map (·.2) ∨
    ∃ probe ∈ p.readinessProbe, ∃ exec ∈ probe.exec, text = exec.command := by
  rw [Process.mem_values]
  constructor
  · rintro (_ | ⟨hentry, hvalue⟩ | ⟨hprobe, hexec⟩)
    · exact .inl rfl
    · exact .inr (.inl ⟨_, hentry, _, hvalue⟩)
    · exact .inr (.inr ⟨_, hprobe, _, hexec, rfl⟩)
  · rintro (rfl | ⟨entry, hentry, key, hvalue⟩ | ⟨probe, hprobe, exec, hexec, rfl⟩)
    · exact .command
    · exact .value hentry hvalue
    · exact .exec hprobe hexec

theorem requestsWith_iff : RequestsWith p text ↔
    ∃ probe ∈ p.readinessProbe, ∃ http ∈ probe.httpGet,
      text ∈ http.host.toList ++ (http.port.map (·.toText)).toList ++ http.path.toList := by
  simp only [List.mem_append, Option.mem_toList, Option.map_eq_some_iff, Option.mem_def]
  constructor
  · rintro (⟨hprobe, hhttp, hhost⟩ | ⟨hprobe, hhttp, hport⟩ | ⟨hprobe, hhttp, hpath⟩)
    · exact ⟨_, hprobe, _, hhttp, .inl (.inl hhost)⟩
    · exact ⟨_, hprobe, _, hhttp, .inl (.inr ⟨_, hport, rfl⟩)⟩
    · exact ⟨_, hprobe, _, hhttp, .inr hpath⟩
  · rintro ⟨probe, hprobe, http, hhttp, (hhost | ⟨port, hport, rfl⟩) | hpath⟩
    · exact .host hprobe hhttp hhost
    · exact .port hprobe hhttp hport
    · exact .path hprobe hhttp hpath

theorem mem_expandedFields :
    text ∈ expandedFields p ↔ RunsWith p text ∨ ¬ HasExec p ∧ RequestsWith p text := by
  rw [runsWith_iff, requestsWith_iff]
  unfold expandedFields HasExec
  dsimp only
  rw [List.mem_append, List.mem_cons, or_assoc, or_assoc]
  refine or_congr_right ?_
  rw [or_assoc]
  refine or_congr_right ?_
  cases hprobe : p.readinessProbe with
  | none => simp
  | some probe =>
    cases hexec : probe.exec with
    | some exec => simp [ReadinessProbe.kind, hexec]
    | none => cases hhttp : probe.httpGet <;> simp [ReadinessProbe.kind, hexec, hhttp]

theorem processUsesSubstitution_iff : processUsesSubstitution p = true ↔ ShowsVariable p := by
  unfold processUsesSubstitution ShowsVariable
  simp only [List.any_eq_true, mem_expandedFields]

theorem UsesVariable.of_shows (h : ShowsVariable p) : UsesVariable p := by
  obtain ⟨text, hruns | ⟨-, hrequests⟩, hvariable⟩ := h
  · exact ⟨text, .inl hruns, hvariable⟩
  · exact ⟨text, .inr hrequests, hvariable⟩

end Fields

/-- What is said of a document in which the process of this name uses a variable. -/
def unfiled (doc : Document) (name : String) : Violation :=
  Rule.envFile.violation doc (doc.positionOf name [])
    ("process '" ++ name ++ "' uses variable substitution but the document declares no env_file")

theorem unfiled_injective (doc : Document) : Function.Injective (unfiled doc) := by
  intro name other h
  have hmessage := congrArg (String.toList ·.message) h
  simpa [unfiled, Rule.violation, String.toList_inj] using hmessage

theorem checkEnvFile_eq (doc : Document) : checkEnvFile doc =
    if doc.envFiles.isEmpty then
      (doc.processes.find? processUsesSubstitution).toList.map (unfiled doc ·.name)
    else [] := by
  unfold checkEnvFile unfiled
  simp only [String.append_assoc]
  rfl

end Environment

open Environment

/-- One violation that names the first process which uses a variable, unless the document names
files that define variables. -/
def Document.NamesFirst (doc : Document) (uses : Process → Prop) (report : List Violation) : Prop :=
  OneIf (doc.envFiles = [] ∧ ∃ p ∈ doc.processes, uses p)
    (fun v => ∃ p, doc.IsFirst uses p ∧ v = unfiled doc p.name) report

namespace Document

variable {doc : Document}

theorem namesFirst_shows (doc : Document) :
    doc.NamesFirst ShowsVariable (Rule.envFile.check doc) := by
  rw [Rule.check_eq_findings rfl]
  unfold Rule.findings
  dsimp only
  rw [checkEnvFile_eq]
  by_cases hfiles : doc.envFiles = []
  · rw [hfiles, if_pos List.isEmpty_nil]
    cases hfind : doc.processes.find? processUsesSubstitution with
    | some p =>
      have hfirst := (IsFirst.iff_find? fun _ => processUsesSubstitution_iff).mpr hfind
      exact .one ⟨hfiles, p, hfirst.spec⟩ ⟨p, hfirst, rfl⟩
    | none =>
      refine .none ?_
      rintro ⟨-, p, hp, hshows⟩
      exact List.find?_eq_none.mp hfind p hp (processUsesSubstitution_iff.mpr hshows)
  · rw [if_neg (by simpa using hfiles)]
    exact .none fun h => hfiles h.1

/-- Of what is searched the first process is always named. Nothing is missed just if the first
process that uses a variable at all goes by the name of the first in which one is found. -/
theorem namesFirst_iff (doc : Document) :
    doc.NamesFirst ShowsVariable (Rule.envFile.check doc) ∧
      (doc.NamesFirst UsesVariable (Rule.envFile.check doc) ↔
        (doc.envFiles = [] → ∀ p, doc.IsFirst UsesVariable p →
          ∃ q, doc.IsFirst ShowsVariable q ∧ q.name = p.name)) := by
  have hshown := doc.namesFirst_shows
  refine ⟨hshown, ?_, ?_⟩
  · intro hnames hfiles p hp
    obtain ⟨hmem, huses⟩ := hp.spec
    obtain ⟨v, ⟨p', hp', rfl⟩, hreport⟩ := hnames.found ⟨hfiles, p, hmem, huses⟩
    obtain rfl := hp.unique hp'
    have hfound : doc.envFiles = [] ∧ ∃ p ∈ doc.processes, ShowsVariable p := by
      by_contra hnot
      rw [hshown.silent hnot] at hreport
      cases hreport
    obtain ⟨v, ⟨q, hq, rfl⟩, hother⟩ := hshown.found hfound
    -- Both are what the report says, which tells no more of a process than its name.
    rw [hreport, List.cons.injEq] at hother
    exact ⟨q, hq, (unfiled_injective doc hother.1).symm⟩
  · intro hfirst
    constructor
    · rintro ⟨hfiles, p, hmem, huses⟩
      obtain ⟨p, hp⟩ := IsFirst.exists_of_mem hmem huses
      obtain ⟨q, hq, hname⟩ := hfirst hfiles p hp
      obtain ⟨hqmem, hshows⟩ := hq.spec
      obtain ⟨v, ⟨q', hq', rfl⟩, hreport⟩ := hshown.found ⟨hfiles, q, hqmem, hshows⟩
      obtain rfl := hq.unique hq'
      exact ⟨_, ⟨p, hp, by rw [hname]⟩, hreport⟩
    · intro hnot
      refine hshown.silent fun hshows => hnot ?_
      obtain ⟨hfiles, p, hmem, hshows⟩ := hshows
      exact ⟨hfiles, p, hmem, .of_shows hshows⟩

section Example

set_option maxRecDepth 20000

/-- A probe with a command and a request, of which only the request uses a variable. -/
def commandAndRequest : Document where
  path := "p"
  version := ""
  envFiles := []
  text := "processes:\n  web:\n    readiness_probe:\n      exec: \x7bcommand: pg_isready\x7d\n" ++
    "      http_get: \x7bhost: \"$\x7bHOST\x7d\"\x7d\n"
  sourceMap := ⟨[(["processes"], ⟨1, 1⟩), (["processes", "web"], ⟨2, 3⟩),
    (["processes", "web", "readiness_probe"], ⟨3, 5⟩),
    (["processes", "web", "readiness_probe", "exec"], ⟨4, 7⟩),
    (["processes", "web", "readiness_probe", "exec", "command"], ⟨4, 14⟩),
    (["processes", "web", "readiness_probe", "http_get"], ⟨5, 7⟩),
    (["processes", "web", "readiness_probe", "http_get", "host"], ⟨5, 18⟩)]⟩
  processes := [{ Process.named "web" with
    readinessProbe := some ⟨some ⟨none, some "$\x7bHOST\x7d", none, none⟩,
      some ⟨"pg_isready", none⟩, none, none, none, none, none⟩ }]

/-- The process uses a variable and no file is declared, and yet nothing is reported. -/
theorem not_namesFirst_commandAndRequest :
    ∃ doc, parse "p" commandAndRequest.text.toUTF8 = .ok doc ∧ doc.envFiles = [] ∧
      (∃ p ∈ doc.processes, UsesVariable p) ∧ Rule.envFile.check doc = [] ∧
      ¬ doc.NamesFirst UsesVariable (Rule.envFile.check doc) := by
  have hread : commandAndRequest.IsRead := by
    rw [isRead_iff_toOption]
    decide +kernel
  have huses : ∃ p ∈ commandAndRequest.processes, UsesVariable p :=
    ⟨_, List.mem_singleton_self _, _, .inr (.host rfl rfl rfl), by decide +kernel⟩
  have hreport : Rule.envFile.check commandAndRequest = [] := by decide +kernel
  refine ⟨commandAndRequest, parse_eq_ok.mpr ⟨hread, rfl, rfl⟩, rfl, huses, hreport, fun h => ?_⟩
  obtain ⟨v, -, hv⟩ := h.found ⟨rfl, huses⟩
  rw [hreport] at hv
  cases hv

end Example

end Document

end ProcessLint
