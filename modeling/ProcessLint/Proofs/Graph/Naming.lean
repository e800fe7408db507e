import Mathlib.Data.List.Induction
import ProcessLint.Proofs.Graph.Chart

/-!
Names that are referred to one after the other. What is assigned then are these names with one
identifier each, and it stays when more names follow. So the identifiers that are taken are those of
the names so far, and a search for one that is not has to end behind them.
-/
namespace ProcessLint.Flowchart

/-- What is assigned when names have been referred to, where nothing was assigned before. -/
def assignedTo (names : List String) : Identifiers := (names.mapM reference |>.run []).2

/-- The identifier of a name when all names have been referred to. -/
def idAmong (names : List String) (name : String) : String :=
  ((assignedTo names).lookup name).getD ""

section Runs

variable {names before : List String} {name id : String}

theorem reference_run (name : String) (assigned : Identifiers) :
    reference name assigned =
      (if (identifier name assigned).1 = name then (identifier name assigned).1
        else (identifier name assigned).1 ++ quoteLabel name, (identifier name assigned).2) := rfl

theorem assignedTo_append (before rest : List String) :
    assignedTo (before ++ rest) = (rest.mapM reference (assignedTo before)).2 := by
  unfold assignedTo
  rw [List.mapM_append]
  rfl

theorem assignedTo_concat (before : List String) (name : String) :
    assignedTo (before ++ [name]) = (identifier name (assignedTo before)).2 := by
  rw [assignedTo_append, List.mapM_cons, List.mapM_nil]
  rfl

theorem assignedTo_isValid (names : List String) : (assignedTo names).IsValid :=
  (Assigns.mapM reference_assigns names [] .nil).1

theorem assignedTo_suffix (h : before <+: names) : assignedTo before <:+ assignedTo names := by
  obtain ⟨rest, rfl⟩ := h
  rw [assignedTo_append]
  exact (Assigns.mapM reference_assigns rest _ (assignedTo_isValid before)).2.1

/-- By induction on the references, from the last one backwards. -/
theorem mem_names_assignedTo (names : List String) :
    name ∈ (assignedTo names).map Prod.fst ↔ name ∈ names := by
  induction names using List.reverseRecOn with
  | nil => exact Iff.rfl
  | append_singleton before last ih =>
    rw [assignedTo_concat, mem_names_identifier, ih, List.mem_append, List.mem_singleton, or_comm]

/-- The names referred to are those with an identifier, and each has one. -/
theorem mem_assignedTo :
    (name, id) ∈ assignedTo names ↔ name ∈ names ∧ idAmong names name = id := by
  constructor
  · intro hmem
    refine ⟨(mem_names_assignedTo names).mp (List.mem_map_of_mem hmem), ?_⟩
    rw [idAmong, (assignedTo_isValid names).lookup_eq_some hmem, Option.getD_some]
  · rintro ⟨hname, rfl⟩
    obtain ⟨⟨_, id⟩, hmem, rfl⟩ := List.mem_map.mp ((mem_names_assignedTo names).mpr hname)
    rwa [idAmong, (assignedTo_isValid names).lookup_eq_some hmem, Option.getD_some]

/-- An identifier is kept. -/
theorem idAmong_stays (h : before <+: names) (hname : name ∈ before) :
    idAmong before name = idAmong names name := by
  have hmem : (name, idAmong before name) ∈ assignedTo before := mem_assignedTo.mpr ⟨hname, rfl⟩
  exact (mem_assignedTo.mp ((assignedTo_suffix h).subset hmem)).2.symm

theorem identifier_eq_idAmong (h : before ++ [name] <+: names) :
    (identifier name (assignedTo before)).1 = idAmong names name := by
  obtain ⟨hvalid, -, hassigned⟩ := identifier_assigns name _ (assignedTo_isValid before)
  have hmem := hassigned _ hvalid (List.suffix_refl _)
  rw [← assignedTo_concat] at hmem
  rw [← idAmong_stays h (by simp), (mem_assignedTo.mp hmem).2]

/-- What is taken are the identifiers of the names before. -/
theorem mem_taken (h : before <+: names) :
    id ∈ (assignedTo before).map Prod.snd ↔ id ∈ before.map (idAmong names) := by
  constructor
  · intro hid
    obtain ⟨⟨name, _⟩, hmem, rfl⟩ := List.mem_map.mp hid
    obtain ⟨hname, rfl⟩ := mem_assignedTo.mp hmem
    exact List.mem_map.mpr ⟨name, hname, (idAmong_stays h hname).symm⟩
  · intro hid
    obtain ⟨name, hname, rfl⟩ := List.mem_map.mp hid
    rw [← idAmong_stays h hname]
    exact List.mem_map_of_mem (mem_assignedTo.mpr ⟨hname, rfl⟩)

theorem StopsAt.congr {taken other : List String} {base : String} {n : Nat}
    (htaken : ∀ id, id ∈ taken ↔ id ∈ other) (h : StopsAt taken base n) : StopsAt other base n :=
  ⟨fun hfree => h.free ((htaken _).mpr hfree), fun k hk => (htaken _).mp (h.tried k hk)⟩

theorem exists_stopsAt_idAmong (h : before ++ [name] <+: names) (hname : name ∉ before) :
    ∃ n, StopsAt (before.map (idAmong names)) (sanitize name) n ∧
      idAmong names name = candidate (sanitize name) n := by
  have hbefore : before <+: names := (List.prefix_append before [name]).trans h
  obtain ⟨n, hstop⟩ := exists_stopsAt ((assignedTo before).map Prod.snd) (sanitize name)
  have hnew : (assignedTo before).lookup name = none := by
    refine List.lookup_eq_none_iff.mpr fun entry hentry => bne_iff_ne.mpr fun heq => hname ?_
    exact (mem_names_assignedTo before).mp (heq ▸ List.mem_map_of_mem hentry)
  refine ⟨n, hstop.congr fun _ => mem_taken hbefore, ?_⟩
  rw [← identifier_eq_idAmong h, identifier_run, hnew]
  exact hstop.fresh_eq

end Runs

/-- A reference in print: the identifier, and behind it the name as a label unless they are the
same. In the label the entity stands for each quote, so the first quote is its end. -/
structure IsPrinted (name id text : String) : Prop where
  bare_iff : text = id ↔ id = name
  label : id ≠ name → ∃ label : String, text = id ++ "[\"" ++ label ++ "\"]" ∧
    label.toList = List.intercalate "#quot;".toList (name.toList.splitOn '"') ∧
    '"' ∉ label.toList

theorem exists_label (name : String) :
    ∃ label : String, quoteLabel name = "[\"" ++ label ++ "\"]" ∧
      label.toList = List.intercalate "#quot;".toList (name.toList.splitOn '"') ∧
      '"' ∉ label.toList := by
  refine ⟨String.ofList (name.toList.flatMap fun c => if c = '"' then "#quot;".toList else [c]),
    rfl, ?_⟩
  rw [String.toList_ofList]
  refine ⟨Text.flatMap_eq_intercalate .., fun hquote => ?_⟩
  simpa using ne_quote_of_mem_label _ hquote

theorem isPrinted_labelled {name id : String} (h : id ≠ name) :
    IsPrinted name id (id ++ quoteLabel name) where
  bare_iff := by
    refine iff_of_false (fun heq => ?_) h
    have hself : id.toList ++ (quoteLabel name).toList = id.toList := by
      rw [← String.toList_append, heq]
    have hlabel : (quoteLabel name).toList = [] := List.append_right_eq_self.mp hself
    rw [toList_quoteLabel] at hlabel
    cases hlabel
  label _ := by
    obtain ⟨label, hlabel, hentities⟩ := exists_label name
    refine ⟨label, ?_, hentities⟩
    rw [hlabel, String.append_assoc, String.append_assoc, String.append_assoc]

theorem isPrinted_reference (name : String) (assigned : Identifiers) :
    IsPrinted name (identifier name assigned).1 (reference name assigned).1 := by
  rw [reference_run]
  by_cases hid : (identifier name assigned).1 = name
  · rw [if_pos hid, hid]
    exact ⟨iff_of_true rfl rfl, fun h => absurd rfl h⟩
  · rw [if_neg hid]
    exact isPrinted_labelled hid

/-- However names are referred to, one after the other, each has one identifier for all its
references and no other name has it. -/
structure TellsApart (names : List String) : Prop where
  /-- Each reference finds the identifier that the name has in the end. -/
  steady : ∀ before name, before ++ [name] <+: names →
    (identifier name |>.run (assignedTo before)).1 = idAmong names name
  distinct : ∀ name ∈ names, ∀ other ∈ names, idAmong names name = idAmong names other →
    name = other
  /-- The first reference to a name tries its candidates until one is not taken, and no more of them
  are taken than there were references before. -/
  search : ∀ before name, before ++ [name] <+: names → name ∉ before →
    ∃ n ≤ before.length, StopsAt (before.map (idAmong names)) (sanitize name) n ∧
      idAmong names name = candidate (sanitize name) n
  words : ∀ name ∈ names, idAmong names name ≠ "" ∧
    ∀ c ∈ (idAmong names name).toList, c.isAlpha ∨ c.isDigit ∨ c = '_'
  printed : ∀ before name, before ++ [name] <+: names →
    IsPrinted name (idAmong names name) (reference name |>.run (assignedTo before)).1

/-- Names are told apart by the identifiers in their references. -/
theorem reference_tellsApart (names : List String) : TellsApart names where
  steady _ _ h := identifier_eq_idAmong h
  distinct name hname other hother hid := by
    have hmem := mem_assignedTo.mpr ⟨hname, hid⟩
    exact (assignedTo_isValid names).name_unique hmem (mem_assignedTo.mpr ⟨hother, rfl⟩)
  search before name h hname := by
    obtain ⟨n, hstop, hid⟩ := exists_stopsAt_idAmong h hname
    have hlength := le_length_of_tried hstop.tried
    rw [List.length_map] at hlength
    exact ⟨n, hlength, hstop, hid⟩
  words name hname := by
    obtain ⟨hne, hchars⟩ := (assignedTo_isValid names).words _ (mem_assignedTo.mpr ⟨hname, rfl⟩)
    refine ⟨by simpa using hne, fun c hc => ?_⟩
    have hchar := hchars c hc
    simpa [isIdentifierChar, Char.isAlphanum, or_assoc] using hchar
  printed before name h := by
    rw [← identifier_eq_idAmong h]
    exact isPrinted_reference name (assignedTo before)

-- The third name is what the second one gets.
example : (["a-b", "a_b", "a_b_2", "a\"b", "a_b"].mapM reference |>.run []).1 =
    ["a_b[\"a-b\"]", "a_b_2[\"a_b\"]", "a_b_2_2[\"a_b_2\"]", "a_b_3[\"a#quot;b\"]",
      "a_b_2[\"a_b\"]"] := by cbv

end ProcessLint.Flowchart
