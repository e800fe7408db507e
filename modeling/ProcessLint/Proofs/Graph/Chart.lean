import ProcessLint.Proofs.Graph.Edges
import ProcessLint.Proofs.Graph.Identifiers
import ProcessLint.Proofs.Text.Runs
import ProcessLint.Proofs.Text.Split

/-!
A chart read back. Each line is cut at its identifiers, which are put for the names that they were
assigned to; labels are for display and are skipped. What is read from the lines are the
dependencies and the processes that stand alone.
-/
namespace ProcessLint

namespace Flowchart

/-- What is assigned when all lines of a graph are written. -/
def assigned (graph : Graph) : Identifiers := (lines graph |>.run []).2

def nameOf? (assigned : Identifiers) (id : List Char) : Option String :=
  (assigned.find? fun entry => entry.2.toList == id).map Prod.fst

/-- What stands behind the label that a text starts with, or else the text. -/
def skipLabel (text : List Char) : List Char :=
  match Text.stripStart? ['[', '"'] text with
  | some label => (label.dropWhile (· != '"')).drop 2
  | none => text

/-- The name of the identifier that a text starts with, and what follows its label. -/
def readReference (assigned : Identifiers) (text : List Char) : Option (String × List Char) := do
  let name ← nameOf? assigned (text.takeWhile isIdentifierChar)
  return (name, skipLabel (text.dropWhile isIdentifierChar))

def readEdge (assigned : Identifiers) (line : List Char) : Option (String × String) := do
  let (dependent, behind) ← readReference assigned (← Text.stripStart? "    ".toList line)
  let (dependency, behind) ← readReference assigned (← Text.stripStart? " --> ".toList behind)
  if behind.isEmpty then return (dependent, dependency) else none

def readRoot (assigned : Identifiers) (line : List Char) : Option String := do
  let (name, behind) ← readReference assigned (← Text.stripStart? "    ".toList line)
  if behind.isEmpty then return name else none

section References

variable {assigned : Identifiers} {name id : String} {rest : List Char}

theorem nameOf?_eq_some (hvalid : assigned.IsValid) (hmem : (name, id) ∈ assigned) :
    nameOf? assigned id.toList = some name := by
  unfold nameOf?
  cases hfound : assigned.find? fun entry => entry.2.toList == id.toList with
  | none => simpa using List.find?_eq_none.mp hfound (name, id) hmem
  | some entry =>
    obtain ⟨other, otherId⟩ := entry
    have hid : otherId = id := by simpa [String.toList_inj] using List.find?_some hfound
    subst hid
    rw [hvalid.name_unique hmem (List.mem_of_find?_eq_some hfound)]
    rfl

/-- A text that an identifier or a label does not go on into. -/
def IsDelimited (rest : List Char) : Prop :=
  ∀ c ∈ rest.head?, isIdentifierChar c = false ∧ c ≠ '['

theorem skipLabel_eq_self (hrest : IsDelimited rest) : skipLabel rest = rest := by
  cases rest with
  | nil => rfl
  | cons c rest =>
    have hc : '[' ≠ c := (hrest c rfl).2.symm
    simp [skipLabel, Text.stripStart?, hc]

theorem toList_quoteLabel (name : String) :
    (quoteLabel name).toList = ['[', '"'] ++
      ((name.toList.flatMap fun c => if c = '"' then "#quot;".toList else [c]) ++ ['"', ']']) := by
  simp only [quoteLabel, String.toList_append, String.toList_ofList, List.append_assoc]
  rfl

/-- Between the quotes around it, a label holds none. -/
theorem ne_quote_of_mem_label : ∀ c ∈ name.toList.flatMap fun c =>
    if c = '"' then "#quot;".toList else [c], (c != '"') = true := by
  have hentity : ∀ c ∈ "#quot;".toList, (c != '"') = true := by simp
  intro c hc
  obtain ⟨before, -, hc⟩ := List.mem_flatMap.mp hc
  by_cases hbefore : before = '"'
  · rw [if_pos hbefore] at hc
    exact hentity c hc
  · rw [if_neg hbefore] at hc
    rw [List.mem_singleton.mp hc]
    simpa using hbefore

theorem skipLabel_quoteLabel (name : String) (rest : List Char) :
    skipLabel ((quoteLabel name).toList ++ rest) = rest := by
  rw [toList_quoteLabel, List.append_assoc, skipLabel, Text.stripStart?_append]
  dsimp only
  rw [List.append_assoc, List.dropWhile_append_of_pos ne_quote_of_mem_label]
  rfl

/-- A text that is read as a name wherever it ends, and that is on one line if the name is. -/
structure IsReference (assigned : Identifiers) (name text : String) : Prop where
  read : ∀ rest, IsDelimited rest → readReference assigned (text.toList ++ rest) = some (name, rest)
  line : '\n' ∉ name.toList → '\n' ∉ text.toList

theorem newline_notMem_of_isWord (hid : IsWord id) : '\n' ∉ id.toList := by
  intro hmem
  exact absurd (hid.2 _ hmem) (by decide)

theorem isReference_identifier (hvalid : assigned.IsValid) (hmem : (name, id) ∈ assigned) :
    IsReference assigned name id where
  read rest hrest := by
    have hid := hvalid.words _ hmem
    obtain ⟨htake, hdrop⟩ := Text.takeWhile_run hid.2 fun c hc => (hrest c hc).1
    rw [readReference, htake, hdrop, nameOf?_eq_some hvalid hmem, skipLabel_eq_self hrest]
    rfl
  line _ := newline_notMem_of_isWord (hvalid.words _ hmem)

theorem isReference_labelled (hvalid : assigned.IsValid) (hmem : (name, id) ∈ assigned) :
    IsReference assigned name (id ++ quoteLabel name) where
  read rest _ := by
    have hbracket : ∀ c ∈ ((quoteLabel name).toList ++ rest).head?, isIdentifierChar c = false := by
      intro c hc
      rw [toList_quoteLabel] at hc
      cases hc
      decide
    obtain ⟨htake, hdrop⟩ := Text.takeWhile_run (hvalid.words _ hmem).2 hbracket
    rw [String.toList_append, List.append_assoc, readReference, htake, hdrop,
      nameOf?_eq_some hvalid hmem, skipLabel_quoteLabel]
    rfl
  line hname := by
    have hid := newline_notMem_of_isWord (hvalid.words _ hmem)
    have hlabel : '\n' ∉ (quoteLabel name).toList := by
      simp only [toList_quoteLabel, List.mem_append, List.mem_flatMap, not_or, not_exists, not_and]
      refine ⟨by decide, fun c hc => ?_, by decide⟩
      split
      · decide
      · intro hnewline
        exact hname (List.mem_singleton.mp hnewline ▸ hc)
    simp [hid, hlabel]

theorem reference_assigns (name : String) :
    Assigns (reference name) fun final text => IsReference final name text := by
  refine (identifier_assigns name).bind fun id => .pure fun final hvalid hmem => ?_
  by_cases hid : id = name
  · rw [if_pos hid]
    exact isReference_identifier hvalid hmem
  · rw [if_neg hid]
    exact isReference_labelled hvalid hmem

end References

section Lines

/-- A line that is read as an item, and that has no line break if the names in the item have none. -/
structure Tells {α : Type} (read : List Char → Option α) (names : α → List String) (item : α)
    (line : String) : Prop where
  read : read line.toList = some item
  line : (∀ name ∈ names item, '\n' ∉ name.toList) → '\n' ∉ line.toList

theorem read_of_forall₂_tells {α : Type} {read : List Char → Option α} {names : α → List String}
    {items : List α} {texts : List String} (h : List.Forall₂ (Tells read names) items texts)
    (hnames : ∀ item ∈ items, ∀ name ∈ names item, '\n' ∉ name.toList) :
    (texts.map String.toList).map read = items.map some ∧ ∀ text ∈ texts, '\n' ∉ text.toList := by
  induction h with
  | nil => simp
  | cons htells _ ih =>
    obtain ⟨hfirst, hrest⟩ := List.forall_mem_cons.mp hnames
    obtain ⟨hread, hlines⟩ := ih hrest
    refine ⟨?_, List.forall_mem_cons.mpr ⟨htells.line hfirst, hlines⟩⟩
    rw [List.map_cons, List.map_cons, List.map_cons, htells.read, hread]

theorem edgeLine_assigns (edge : String × String) :
    Assigns (edgeLine edge) fun final line =>
      Tells (readEdge final) (fun edge => [edge.1, edge.2]) edge line := by
  refine (reference_assigns edge.1).bind fun dependent => (reference_assigns edge.2).bind
    fun dependency => .pure fun final _ hdependency hdependent => ?_
  constructor
  · have harrow : IsDelimited (" --> ".toList ++ dependency.toList) := by
      intro c hc
      cases hc
      decide
    have hend : IsDelimited [] := by simp [IsDelimited]
    have hread := hdependency.read [] hend
    rw [List.append_nil] at hread
    simp only [String.toList_append, List.append_assoc, readEdge, Text.stripStart?_append,
      hdependent.read _ harrow, hread, Option.bind_eq_bind, Option.bind_some]
    rfl
  · intro hnames
    have hdependent := hdependent.line (hnames _ (by simp))
    have hdependency := hdependency.line (hnames _ (by simp))
    simp only [String.toList_append, List.mem_append, not_or]
    exact ⟨⟨⟨by decide, hdependent⟩, by decide⟩, hdependency⟩

theorem rootLine_assigns (name : String) :
    Assigns (rootLine name) fun final line =>
      Tells (readRoot final) (fun name => [name]) name line := by
  refine (reference_assigns name).bind fun text => .pure fun final _ htext => ?_
  constructor
  · have hread := htext.read [] (by simp [IsDelimited])
    rw [List.append_nil] at hread
    simp only [String.toList_append, readRoot, Text.stripStart?_append, hread,
      Option.bind_eq_bind, Option.bind_some]
    rfl
  · intro hnames
    rw [String.toList_append, List.mem_append, not_or]
    exact ⟨by decide, htext.line (hnames _ (by simp))⟩

theorem lines_assigns (graph : Graph) :
    Assigns (lines graph) fun final texts => ∃ edgeLines rootLines, texts = edgeLines ++ rootLines ∧
      List.Forall₂ (Tells (readEdge final) fun edge => [edge.1, edge.2]) graph.edges edgeLines ∧
      List.Forall₂ (Tells (readRoot final) fun name => [name]) (isolated graph) rootLines :=
  (Assigns.mapM edgeLine_assigns graph.edges).bind fun edgeLines =>
    (Assigns.mapM rootLine_assigns (isolated graph)).bind fun rootLines =>
      .pure fun _ _ hroots hedges => ⟨edgeLines, rootLines, rfl, hedges, hroots⟩

end Lines

/-- Lines that each end in a line break are cut there, with nothing behind the last. -/
theorem splitOn_join {texts : List String} (h : ∀ text ∈ texts, '\n' ∉ text.toList) :
    (String.join (texts.map (· ++ "\n"))).toList.splitOn '\n' =
      texts.map String.toList ++ [[]] := by
  have hjoin : (String.join (texts.map (· ++ "\n"))).toList =
      ['\n'].intercalate (texts.map String.toList ++ [[]]) := by
    rw [String.toList_join, List.flatMap_map]
    clear h
    induction texts with
    | nil => rfl
    | cons text texts ih =>
      rw [List.flatMap_cons, ih, List.map_cons, List.cons_append,
        List.intercalate_cons_of_ne_nil (by simp)]
      simp
  refine hjoin ▸ List.splitOn_intercalate '\n' (fun line hline => ?_) (by simp)
  rcases List.mem_append.mp hline with hline | hline
  · obtain ⟨text, htext, rfl⟩ := List.mem_map.mp hline
    exact h text htext
  · simp [List.mem_singleton.mp hline]

end Flowchart

open Flowchart

/-- The edges of a graph are the dependencies, each once and in the order of the nodes that they
lead to. Its chart has a line for each, then one for each process that stands alone. -/
structure Graph.IsCharted (doc : Document) (graph : Graph) : Prop where
  order : graph.edges = graph.places.filterMap Place.edge
  once : graph.edges.Nodup
  mem_iff : ∀ name other, (name, other) ∈ graph.edges ↔ doc.DependsOn name other
  assignment : (assigned graph).IsValid
  lines : ∃ edgeLines rootLines,
    graph.flowchart.toList.splitOn '\n' =
      "flowchart TD".toList :: (edgeLines ++ rootLines ++ [[]]) ∧
    edgeLines.map (readEdge (assigned graph)) = graph.edges.map some ∧
    rootLines.map (readRoot (assigned graph)) =
      (doc.processes.filter fun p => p.dependsOn = [] ∧ ¬ doc.IsNeeded p.name).map (some ·.name)

namespace Graph

section Declared

variable (doc : Document) (statuses : Statuses) (hnodup : (doc.processes.map (·.name)).Nodup)
  (hneeds : ∀ p ∈ doc.processes, (p.dependsOn.map (·.name)).Nodup)
include hnodup hneeds

/-- With names on one line, the chart of a document tells who depends on whom, and who stands
alone. -/
theorem ofDocument_isCharted
    (hlines : ∀ p ∈ doc.processes, '\n' ∉ p.name.toList ∧
      ∀ d ∈ p.dependsOn, '\n' ∉ d.name.toList) :
    IsCharted doc (ofDocument doc statuses) := by
  have hedgeNames : ∀ edge ∈ (ofDocument doc statuses).edges,
      ∀ name ∈ [edge.1, edge.2], '\n' ∉ name.toList := by
    rintro ⟨name, other⟩ hedge
    obtain ⟨p, hp, rfl, d, hd, rfl⟩ := (mem_edges statuses hnodup hneeds).mp hedge
    simpa using ⟨(hlines p hp).1, (hlines p hp).2 d hd⟩
  have hisolated := isolated_eq statuses hnodup hneeds
  have hrootNames : ∀ root ∈ isolated (ofDocument doc statuses),
      ∀ name ∈ [root], '\n' ∉ name.toList := by
    intro root hroot
    rw [hisolated] at hroot
    obtain ⟨p, hp, rfl⟩ := List.mem_map.mp hroot
    simpa using (hlines p (List.mem_of_mem_filter hp)).1
  obtain ⟨hvalid, -, htells⟩ := lines_assigns (ofDocument doc statuses) [] .nil
  obtain ⟨edgeLines, rootLines, htexts, hedges, hroots⟩ := htells _ hvalid (List.suffix_refl _)
  obtain ⟨hreadEdges, hedgeLines⟩ := read_of_forall₂_tells hedges hedgeNames
  obtain ⟨hreadRoots, hrootLines⟩ := read_of_forall₂_tells hroots hrootNames
  refine ⟨edges_eq_filterMap statuses hnodup hneeds, ?_,
    fun _ _ => mem_edges statuses hnodup hneeds, hvalid,
    edgeLines.map String.toList, rootLines.map String.toList, ?_, hreadEdges, ?_⟩
  · have hperm := edges_perm statuses hnodup hneeds
    exact hperm.nodup_iff.mpr (Document.nodup_declaredPairs hnodup hneeds)
  · have hflowchart : (ofDocument doc statuses).flowchart =
        String.join (("flowchart TD" :: (edgeLines ++ rootLines)).map (· ++ "\n")) := by
      rw [← htexts]
      rfl
    rw [hflowchart, splitOn_join]
    · simp
    · refine List.forall_mem_cons.mpr ⟨by decide, fun text htext => ?_⟩
      rcases List.mem_append.mp htext with htext | htext
      · exact hedgeLines text htext
      · exact hrootLines text htext
  · refine hreadRoots.trans ?_
    rw [hisolated, List.map_map]
    rfl

end Declared

end Graph

/-- Three names with the same identifier at first, one of them with that of another at second. -/
def Document.colliding : Document where
  path := "colliding.yaml"
  version := ""
  envFiles := []
  text := ""
  sourceMap := ⟨[]⟩
  processes := [.waiting "my-db" ["my_db", "my_db_2"], .waiting "my_db" ["my-db"],
    .waiting "\"my\"" ["my-db", "gone"], .waiting "my.db" []]

private theorem assigned_colliding :
    assigned (Graph.ofDocument .colliding fun _ => none) =
      [("my.db", "my_db_3"), ("gone", "gone"), ("my_db_2", "my_db_2_2"), ("my_db", "my_db_2"),
        ("my-db", "my_db"), ("\"my\"", "_my_")] := by
  have hedges : (Graph.ofDocument .colliding fun _ => none).edges =
      [("\"my\"", "my-db"), ("my-db", "my_db"), ("my_db", "my-db"), ("my-db", "my_db_2"),
        ("\"my\"", "gone")] := by decide +kernel
  have hisolated : isolated (Graph.ofDocument .colliding fun _ => none) = ["my.db"] := by
    decide +kernel
  -- Each name is asked for with the identifiers before it written out.
  have hquoted : fresh [] (sanitize "\"my\"") = "_my_" := by decide +kernel
  have hdash : fresh ["_my_"] (sanitize "my-db") = "my_db" := by decide +kernel
  have hline : fresh ["my_db", "_my_"] (sanitize "my_db") = "my_db_2" := by decide +kernel
  have hsecond : fresh ["my_db_2", "my_db", "_my_"] (sanitize "my_db_2") = "my_db_2_2" := by
    decide +kernel
  have hgone : fresh ["my_db_2_2", "my_db_2", "my_db", "_my_"] (sanitize "gone") = "gone" := by
    decide +kernel
  have hdot : fresh ["gone", "my_db_2_2", "my_db_2", "my_db", "_my_"] (sanitize "my.db") =
      "my_db_3" := by decide +kernel
  unfold assigned lines
  rw [hedges, hisolated]
  have hpure {α : Type} (a : α) (assigned : Identifiers) :
      (StateT.pure a : StateM Identifiers α) assigned = (a, assigned) := rfl
  simp [edgeLine, rootLine, reference, identifier_run, StateT.run, bind, StateT.bind, pure, hpure,
    List.lookup_cons, hquoted, hdash, hline, hsecond, hgone, hdot]

/-- No identifier but one is the name that it is assigned to. -/
theorem Graph.ofDocument_isCharted_colliding :
    assigned (ofDocument .colliding fun _ => none) =
      [("my.db", "my_db_3"), ("gone", "gone"), ("my_db_2", "my_db_2_2"), ("my_db", "my_db_2"),
        ("my-db", "my_db"), ("\"my\"", "_my_")] ∧
      IsCharted .colliding (ofDocument .colliding fun _ => none) :=
  ⟨assigned_colliding,
    ofDocument_isCharted .colliding (fun _ => none) (by decide) (by decide) (by decide)⟩

end ProcessLint
