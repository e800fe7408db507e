import ProcessLint.Data.Json
import ProcessLint.Proofs.Text.Numerals
import ProcessLint.Proofs.Text.Runs
import ProcessLint.Proofs.Text.Split

/-!
JSON can be read in one way only. What begins with a value tells by its first character of which
kind the value is, and it tells where the value ends: a text at the first quote that is not escaped,
a number before what is no digit, a list or a record where no comma follows a part.
-/
namespace ProcessLint.Data

section Texts

/-- The first character of an escaped text, and what stands behind it. -/
def unescape? : List Char → Option (Char × List Char)
  | '\\' :: 'b' :: rest => some ('\x08', rest)
  | '\\' :: 't' :: rest => some ('\x09', rest)
  | '\\' :: 'n' :: rest => some ('\x0a', rest)
  | '\\' :: 'f' :: rest => some ('\x0c', rest)
  | '\\' :: 'r' :: rest => some ('\x0d', rest)
  | '\\' :: 'u' :: rest =>
      (Text.numberOf? 16 (rest.take 4)).map fun code => (Char.ofNat code, rest.drop 4)
  | '\\' :: c :: rest => some (c, rest)
  | c :: rest => some (c, rest)
  | [] => none

theorem hexPadded_control : ∀ code < 32, (Text.hexPadded 4 code).length = 4 ∧
    Text.numberOf? 16 (Text.hexPadded 4 code) = some code := by
  decide

theorem unescape?_escapeJson (c : Char) (rest : List Char) :
    unescape? (escapeJson c ++ rest) = some (c, rest) := by
  unfold escapeJson
  split_ifs with hquote hbackslash hb ht hn hf hr hcontrol
  · rw [hquote]; rfl
  · rw [hbackslash]; rfl
  · rw [hb]; rfl
  · rw [ht]; rfl
  · rw [hn]; rfl
  · rw [hf]; rfl
  · rw [hr]; rfl
  · obtain ⟨hlength, hnumber⟩ := hexPadded_control c.toNat hcontrol
    rw [List.append_assoc, List.cons_append, List.cons_append, List.nil_append, unescape?,
      List.take_left' hlength, List.drop_left' hlength, hnumber, Option.map_some,
      Char.ofNat_toNat]
  · rw [List.singleton_append, unescape?.eq_def]
    split <;> simp_all

theorem escapeJson_append_inj {c d : Char} {rest rest' : List Char}
    (h : escapeJson c ++ rest = escapeJson d ++ rest') : c = d ∧ rest = rest' := by
  have hread := congrArg unescape? h
  rw [unescape?_escapeJson, unescape?_escapeJson] at hread
  exact Prod.mk.inj (Option.some.inj hread)

/-- No character is written as a quote alone, which is what ends the text. -/
theorem escapeJson_append_ne_quote (c : Char) (rest rest' : List Char) :
    escapeJson c ++ rest ≠ '"' :: rest' := by
  unfold escapeJson
  split_ifs <;> simp_all

theorem flatMap_escapeJson_append_inj {s t rest rest' : List Char}
    (h : s.flatMap escapeJson ++ '"' :: rest = t.flatMap escapeJson ++ '"' :: rest') :
    s = t ∧ rest = rest' := by
  induction s generalizing t with
  | nil =>
    cases t with
    | nil => exact ⟨rfl, List.tail_eq_of_cons_eq h⟩
    | cons d t =>
      rw [List.flatMap_cons, List.append_assoc] at h
      exact absurd h.symm (escapeJson_append_ne_quote d _ _)
  | cons c s ih =>
    cases t with
    | nil =>
      rw [List.flatMap_cons, List.append_assoc] at h
      exact absurd h (escapeJson_append_ne_quote c _ _)
    | cons d t =>
      rw [List.flatMap_cons, List.flatMap_cons, List.append_assoc, List.append_assoc] at h
      obtain ⟨rfl, hbehind⟩ := escapeJson_append_inj h
      obtain ⟨rfl, hrest⟩ := ih hbehind
      exact ⟨rfl, hrest⟩

theorem quoteJson_append_inj {s t : String} {rest rest' : List Char}
    (h : quoteJson s.toList ++ rest = quoteJson t.toList ++ rest') : s = t ∧ rest = rest' := by
  unfold quoteJson at h
  simp only [List.cons_append, List.append_assoc, List.nil_append, List.cons.injEq, true_and] at h
  obtain ⟨htext, hrest⟩ := flatMap_escapeJson_append_inj h
  exact ⟨String.toList_inj.mp htext, hrest⟩

end Texts

/-- No digit stands in front. -/
def Stops (rest : List Char) : Prop := ∀ c ∈ rest.head?, c.isDigit = false

/-- A text that begins with what is written for `a` begins with nothing else, and it tells where
that ends if no digit stands there. -/
def IsReadable {α : Type} (write : α → List Char) (a : α) : Prop :=
  ∀ b rest rest', Stops rest → Stops rest' → write a ++ rest = write b ++ rest' →
    a = b ∧ rest = rest'

theorem Stops.cons {c : Char} (h : c.isDigit = false) (rest : List Char) : Stops (c :: rest) := by
  intro d hd
  rwa [← Option.some.inj hd]

theorem number_append_inj {n m : Nat} {rest rest' : List Char} (hrest : Stops rest)
    (hrest' : Stops rest') (h : (toString n).toList ++ rest = (toString m).toList ++ rest') :
    n = m ∧ rest = rest' := by
  obtain ⟨hrun, hbehind⟩ := Text.takeWhile_run (Text.areDigits_toString n).digits hrest
  obtain ⟨hrun', hbehind'⟩ := Text.takeWhile_run (Text.areDigits_toString m).digits hrest'
  have hdigits : (toString n).toList = (toString m).toList := by rw [← hrun, ← hrun', h]
  exact ⟨Text.eq_of_toString_eq (String.toList_inj.mp hdigits), by rw [← hbehind, ← hbehind', h]⟩

theorem flag_append_inj {f g : Bool} {rest rest' : List Char}
    (h : (toString f).toList ++ rest = (toString g).toList ++ rest') : f = g ∧ rest = rest' := by
  have htrue : (toString true).toList = ['t', 'r', 'u', 'e'] := rfl
  have hfalse : (toString false).toList = ['f', 'a', 'l', 's', 'e'] := rfl
  cases f <;> cases g <;> simp_all

section Brackets

variable {α : Type} {write : α → List Char} {items items' : List α} {rest rest' : List Char}

/-- The parts behind the first, each with a comma in front and on a line of its own. -/
def furtherParts (write : α → List Char) (depth : Nat) (items : List α) : List Char :=
  items.flatMap fun item => ',' :: '\n' :: indentation depth ++ write item

theorem stops_furtherParts (write : α → List Char) (depth : Nat) (items : List α)
    (rest : List Char) : Stops (furtherParts write depth items ++ '\n' :: rest) := by
  cases items with
  | nil => exact .cons rfl _
  | cons => exact .cons rfl _

theorem furtherParts_append_inj {depth : Nat} (hread : ∀ item ∈ items, IsReadable write item)
    (h : furtherParts write depth items ++ '\n' :: rest =
      furtherParts write depth items' ++ '\n' :: rest') : items = items' ∧ rest = rest' := by
  induction items generalizing items' with
  | nil =>
    cases items' with
    | nil => exact ⟨rfl, List.tail_eq_of_cons_eq h⟩
    | cons => simp [furtherParts] at h
  | cons item items ih =>
    cases items' with
    | nil => simp [furtherParts] at h
    | cons item' items' =>
      obtain ⟨hitem, hitems⟩ := List.forall_mem_cons.mp hread
      simp only [furtherParts, List.flatMap_cons, List.cons_append, List.append_assoc,
        List.cons.injEq, true_and, List.append_cancel_left_eq] at h
      obtain ⟨rfl, hbehind⟩ :=
        hitem _ _ _ (stops_furtherParts _ _ _ _) (stops_furtherParts _ _ _ _) h
      obtain ⟨rfl, hrest⟩ := ih hitems hbehind
      exact ⟨rfl, hrest⟩

theorem enclose_cons_append (write : α → List Char) (opening closing : Char) (depth : Nat)
    (item : α) (items : List α) (rest : List Char) :
    enclose opening closing depth ((item :: items).map write) ++ rest =
      opening :: '\n' :: indentation (depth + 1) ++
        (write item ++ (furtherParts write (depth + 1) items ++
          '\n' :: (indentation depth ++ closing :: rest))) := by
  simp [enclose, furtherParts, Text.intercalate_cons, List.flatMap_map]

theorem enclose_append_inj {opening closing : Char} (hclosing : closing ≠ '\n') {depth : Nat}
    (hread : ∀ item ∈ items, IsReadable write item)
    (h : enclose opening closing depth (items.map write) ++ rest =
      enclose opening closing depth (items'.map write) ++ rest') :
    items = items' ∧ rest = rest' := by
  cases items with
  | nil =>
    cases items' with
    | nil => exact ⟨rfl, List.append_cancel_left h⟩
    | cons item' items' =>
      rw [enclose_cons_append] at h
      simp [enclose, hclosing] at h
  | cons item items =>
    cases items' with
    | nil =>
      rw [enclose_cons_append] at h
      simp [enclose, hclosing.symm] at h
    | cons item' items' =>
      rw [enclose_cons_append, enclose_cons_append] at h
      obtain ⟨hitem, hitems⟩ := List.forall_mem_cons.mp hread
      obtain ⟨rfl, hbehind⟩ := hitem _ _ _ (stops_furtherParts _ _ _ _)
        (stops_furtherParts _ _ _ _) (List.append_cancel_left h)
      obtain ⟨rfl, hend⟩ := furtherParts_append_inj hitems hbehind
      exact ⟨rfl, List.tail_eq_of_cons_eq (List.append_cancel_left hend)⟩

end Brackets

/-- The kinds of values. -/
inductive Kind where
  | text
  | number
  | flag
  | list
  | record

def kind : Data → Kind
  | .text _ => .text
  | .number _ => .number
  | .flag _ => .flag
  | .list _ => .list
  | .record _ => .record

/-- The kind of the values that begin with a character. -/
def kindOf (c : Char) : Kind :=
  if c = '"' then .text
  else if c = '[' then .list
  else if c = '\x7b' then .record
  else if c.isDigit then .number
  else .flag

theorem kindOf_head (depth : Nat) (data : Data) :
    ∃ c text, jsonAt depth data = c :: text ∧ kindOf c = data.kind := by
  have henclose (opening closing : Char) (parts : List (List Char)) :
      ∃ text, enclose opening closing depth parts = opening :: text := by
    unfold enclose
    split
    · exact ⟨_, rfl⟩
    · exact ⟨_, rfl⟩
  cases data with
  | text s => exact ⟨'"', _, rfl, rfl⟩
  | number n =>
    obtain ⟨hne, hdigits⟩ := Text.areDigits_toString n
    obtain ⟨c, further, htext⟩ := List.exists_cons_of_ne_nil hne
    have hc : c.isDigit = true := hdigits c (htext ▸ List.mem_cons_self ..)
    refine ⟨c, further, by rw [jsonAt, htext], ?_⟩
    unfold kindOf
    rw [if_neg, if_neg, if_neg, if_pos hc]
    · rfl
    all_goals
      rintro rfl
      cases hc
  | flag b =>
    cases b with
    | false => exact ⟨'f', _, rfl, rfl⟩
    | true => exact ⟨'t', _, rfl, rfl⟩
  | list items =>
    obtain ⟨text, htext⟩ := henclose '[' ']' (jsonItems (depth + 1) items)
    exact ⟨'[', text, by rw [jsonAt, htext], rfl⟩
  | record fields =>
    obtain ⟨text, htext⟩ := henclose '\x7b' '\x7d' (jsonFields (depth + 1) fields)
    exact ⟨'\x7b', text, by rw [jsonAt, htext], rfl⟩

theorem kind_eq {depth : Nat} {a b : Data} {rest rest' : List Char}
    (h : jsonAt depth a ++ rest = jsonAt depth b ++ rest') : a.kind = b.kind := by
  obtain ⟨c, text, hjson, hkind⟩ := kindOf_head depth a
  obtain ⟨d, text', hjson', hkind'⟩ := kindOf_head depth b
  rw [hjson, hjson'] at h
  rw [← hkind, ← hkind', List.head_eq_of_cons_eq h]

theorem jsonItems_eq_map (depth : Nat) (items : List Data) :
    jsonItems depth items = items.map (jsonAt depth) := by
  induction items with
  | nil => rfl
  | cons item items ih => rw [jsonItems, ih, List.map_cons]

theorem jsonFields_eq_map (depth : Nat) (fields : List (String × Data)) :
    jsonFields depth fields = fields.map (jsonField depth) := by
  induction fields with
  | nil => rfl
  | cons field fields ih => rw [jsonFields, ih, List.map_cons]

mutual

/-- By induction on the value. A key needs no such hypothesis, as it is always a text. -/
theorem isReadable_jsonAt (depth : Nat) : ∀ data : Data, IsReadable (jsonAt depth) data
  | .text s => by
    intro b rest rest' _ _ h
    match b, kind_eq h with
    | .text t, _ =>
      rw [jsonAt, jsonAt] at h
      obtain ⟨rfl, hend⟩ := quoteJson_append_inj h
      exact ⟨rfl, hend⟩
  | .number n => by
    intro b rest rest' hrest hrest' h
    match b, kind_eq h with
    | .number m, _ =>
      rw [jsonAt, jsonAt] at h
      obtain ⟨rfl, hend⟩ := number_append_inj hrest hrest' h
      exact ⟨rfl, hend⟩
  | .flag f => by
    intro b rest rest' _ _ h
    match b, kind_eq h with
    | .flag g, _ =>
      rw [jsonAt, jsonAt] at h
      obtain ⟨rfl, hend⟩ := flag_append_inj h
      exact ⟨rfl, hend⟩
  | .list items => by
    intro b rest rest' _ _ h
    match b, kind_eq h with
    | .list items', _ =>
      rw [jsonAt, jsonAt, jsonItems_eq_map, jsonItems_eq_map] at h
      obtain ⟨rfl, hend⟩ := enclose_append_inj (by decide) (isReadable_items (depth + 1) items) h
      exact ⟨rfl, hend⟩
  | .record fields => by
    intro b rest rest' _ _ h
    match b, kind_eq h with
    | .record fields', _ =>
      rw [jsonAt, jsonAt, jsonFields_eq_map, jsonFields_eq_map] at h
      obtain ⟨rfl, hend⟩ := enclose_append_inj (by decide) (isReadable_fields (depth + 1) fields) h
      exact ⟨rfl, hend⟩

theorem isReadable_items (depth : Nat) :
    ∀ items : List Data, ∀ item ∈ items, IsReadable (jsonAt depth) item
  | [] => by simp
  | item :: items => List.forall_mem_cons.mpr
      ⟨isReadable_jsonAt depth item, isReadable_items depth items⟩

theorem isReadable_fields (depth : Nat) :
    ∀ fields : List (String × Data), ∀ field ∈ fields, IsReadable (jsonField depth) field
  | [] => by simp
  | field :: fields => List.forall_mem_cons.mpr
      ⟨isReadable_jsonField depth field, isReadable_fields depth fields⟩

theorem isReadable_jsonField (depth : Nat) :
    ∀ field : String × Data, IsReadable (jsonField depth) field
  | (key, value) => by
    rintro ⟨key', value'⟩ rest rest' hrest hrest' h
    rw [jsonField, jsonField, List.append_assoc, List.append_assoc, List.append_assoc,
      List.append_assoc] at h
    obtain ⟨rfl, hbehind⟩ := quoteJson_append_inj h
    obtain ⟨rfl, hend⟩ := isReadable_jsonAt depth value value' rest rest' hrest hrest'
      (List.append_cancel_left hbehind)
    exact ⟨rfl, hend⟩

end

theorem json_injective : Function.Injective json := by
  intro a b h
  have hstops : Stops [] := by simp [Stops]
  have htext : jsonAt 0 a ++ [] = jsonAt 0 b ++ [] := by
    rw [String.ofList_injective h]
  exact (isReadable_jsonAt 0 a b [] [] hstops hstops htext).1

end ProcessLint.Data
