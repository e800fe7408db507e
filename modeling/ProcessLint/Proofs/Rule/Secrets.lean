import ProcessLint.Proofs.Document.Environment
import ProcessLint.Proofs.Rule.Reports
import ProcessLint.Proofs.Text.CaseFolding

/-!
Secrets in plain text. Every entry of the environment of an enabled process is looked at for itself:
it is reported just if its key has one of the words in it that secrets go by, whatever their case,
and its value is given and refers to no variable.
-/
namespace ProcessLint.Environment

open Text

/-- The words that the keys of secrets have in them. -/
def secretWords : List String :=
  ["TOKEN", "SECRET", "KEY", "PASSWORD", "API_", "AUTH_", "ACCOUNT_ID"]

/-- One of the words stands in the key, up to the case of its letters. -/
def LooksSecret (key : String) : Prop :=
  ∃ word ∈ secretWords, ∃ before inside behind, key.toList = before ++ inside ++ behind ∧
    inside.map simpleFold = word.toList.map simpleFold

/-- An entry whose value is a secret itself and no reference to one. -/
def HoldsSecret (entry : String) : Prop :=
  ∃ key value, Process.Assigns entry key value ∧ LooksSecret key ∧ value ≠ "" ∧
    usesSubstitution value = false

/-- What is said of an entry that holds a secret, at the entry or else at its process. -/
def TellsSecret (doc : Document) (process : String) (entry : String) (index : Nat)
    (v : Violation) : Prop :=
  ∃ key value position, Process.Assigns entry key value ∧
    doc.StandsAt process ["environment", toString index] position ∧
    v = Rule.envSubstitution.violation doc position
      ("process '" ++ process ++ "': " ++ key ++
        " looks like a secret but has a literal value; use $\x7b" ++ key ++ "\x7d")

/-- What a process gives to the report: entry by entry a violation for every secret, if the process
is enabled. -/
def TellsSecrets (doc : Document) (p : Process) (part : List Violation) : Prop :=
  PartByPart p.environment.zipIdx
    (fun (entry, index) =>
      OneIf (p.disabled = false ∧ HoldsSecret entry) (TellsSecret doc p.name entry index))
    part

theorem occursIn_iff_isInfix {stem text : List Char} :
    occursIn stem text = true ↔ stem <:+: text := by
  induction text with
  | nil => rw [occursIn, List.isEmpty_iff, List.infix_nil]
  | cons c rest ih =>
    rw [occursIn, Bool.or_eq_true, startsWith_iff_isPrefix, ih, List.infix_cons_iff]

/-- The stems that are looked for are the words as they are folded. -/
theorem secretStems_eq :
    secretStems.map String.toList = secretWords.map fun word => word.toList.map foldCase := by
  decide

theorem isSecretKey_iff {key : String} : isSecretKey key = true ↔ LooksSecret key := by
  have hascii : ∀ word ∈ secretWords, ∀ d ∈ word.toList, d.toNat < 128 := by
    simp [secretWords]
  have hstems : isSecretKey key = true ↔ ∃ word ∈ secretWords,
      word.toList.map foldCase <:+: key.toList.map foldCase := by
    have hmap : isSecretKey key = (secretStems.map String.toList).any fun stem =>
        occursIn stem (key.toList.map foldCase) := by
      rw [List.any_map]
      rfl
    simp only [hmap, secretStems_eq, List.any_map, List.any_eq_true, Function.comp_apply,
      occursIn_iff_isInfix]
  rw [hstems]
  refine exists_congr fun word => and_congr_right fun hword => ?_
  rw [List.infix_map_iff]
  constructor
  · rintro ⟨inside, ⟨before, behind, hkey⟩, hinside⟩
    have hfold := (map_foldCase_eq_iff (hascii word hword)).mp hinside.symm
    exact ⟨before, inside, behind, hkey.symm, hfold⟩
  · rintro ⟨before, inside, behind, hkey, hinside⟩
    have hfold := (map_foldCase_eq_iff (hascii word hword)).mpr hinside
    exact ⟨inside, ⟨before, behind, hkey.symm⟩, hfold.symm⟩

/-- The Kelvin sign is no letter of ASCII, but it is folded to one. -/
example : isSecretKey "to\u212aen" = true := by decide

theorem isLiteralSecret_iff {entry : String} :
    isLiteralSecret (Process.splitEntry entry) = true ↔ HoldsSecret entry := by
  have hparts : ∀ key value, isLiteralSecret (key, value) = true ↔
      LooksSecret key ∧ value ≠ "" ∧ usesSubstitution value = false := by
    intro key value
    simp [isLiteralSecret, isSecretKey_iff, and_assoc]
  constructor
  · intro h
    exact ⟨_, _, Process.assigns_splitEntry entry, (hparts _ _).mp h⟩
  · rintro ⟨key, value, hassigns, h⟩
    rw [Process.splitEntry_eq_iff.mpr hassigns]
    exact (hparts key value).mpr h

theorem tellsSecrets_enabled (doc : Document) {p : Process} (h : p.disabled = false) :
    TellsSecrets doc p
      ((p.environmentPairs.zipIdx.filter fun (pair, _) => isLiteralSecret pair).map
        fun ((key, _), index) =>
          Rule.envSubstitution.violation doc
            (doc.positionOf p.name ["environment", toString index])
            (s!"process '{p.name}': {key} looks like a secret but has a literal value; use " ++
              "$\x7b" ++ key ++ "\x7d")) := by
  unfold Process.environmentPairs TellsSecrets
  rw [List.zipIdx_map, List.filter_map, List.map_map]
  refine .of_filter (.map fun item hitem => ?_) fun item _ hliteral => .none ?_
  · have hsecret := isLiteralSecret_iff.mp (List.mem_filter.mp hitem).2
    refine .one ⟨h, hsecret⟩ ⟨_, _, _, Process.assigns_splitEntry item.1,
      doc.standsAt_positionOf p.name ["environment", toString item.2], ?_⟩
    simp only [Function.comp_apply, Prod.map, String.append_assoc]
    rfl
  · rintro ⟨-, hsecret⟩
    have hfound : isLiteralSecret (Process.splitEntry item.1) = false := hliteral
    rw [isLiteralSecret_iff.mpr hsecret] at hfound
    cases hfound

/-- Each entry of an enabled process is reported just if it holds a secret, process by process and
entry by entry. -/
theorem reports_secrets (doc : Document) :
    PartByPart doc.processes (TellsSecrets doc) (Rule.envSubstitution.check doc) := by
  rw [Rule.check_eq_findings rfl]
  refine .of_enabled (.flatMap fun p hp => ?_) fun p _ hdisabled => .silent fun item _ => .none ?_
  · exact tellsSecrets_enabled doc (Document.disabled_of_mem_enabled hp)
  · rintro ⟨henabled, -⟩
    rw [hdisabled] at henabled
    cases henabled

end ProcessLint.Environment
