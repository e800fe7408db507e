import ProcessLint.Fix.Run
import ProcessLint.Proofs.Postcondition

/-!
A document that was read keeps its path and its text, and from these it can be read again. Bytes
and their text hold the same document.
-/
namespace ProcessLint

namespace Text.Utf8

theorem decode_toUTF8 (text : String) : decode text.toUTF8 = .ok text := by
  have hvalid : text.toUTF8.IsValidUTF8 := text.isValidUTF8
  have hread : String.fromUTF8? text.toUTF8 = some text := by
    unfold String.fromUTF8?
    rw [dif_pos hvalid]
    rfl
  unfold decode
  rw [hread]

theorem toUTF8_of_decode {bytes : ByteArray} {text : String} (h : decode bytes = .ok text) :
    text.toUTF8 = bytes := by
  unfold decode String.fromUTF8? at h
  by_cases hvalid : bytes.IsValidUTF8
  · rw [dif_pos hvalid] at h
    cases h
    rfl
  · rw [dif_neg hvalid] at h
    cases h

end Text.Utf8

namespace Document

/-- The document is what its text holds. -/
def IsRead (doc : Document) : Prop := ofText doc.path doc.text = .ok doc

theorem isRead_iff_toOption {doc : Document} :
    doc.IsRead ↔ (ofText doc.path doc.text).toOption = some doc :=
  eq_ok_iff_toOption

/-- What a document has apart from its content. -/
theorem exists_events_of_ofText {path text : String} {doc : Document}
    (h : ofText path text = .ok doc) : ∃ events, Yaml.Outline.read text.toList = .ok events ∧
      doc.path = path ∧ doc.text = text ∧ doc.sourceMap = (SourceMap.ofEvents events).2 := by
  obtain ⟨events, hevents, hdoc⟩ := bind_eq_ok h
  refine ⟨events, mapError_eq_ok hevents, ?_⟩
  dsimp only at hdoc
  split at hdoc
  · cases hdoc
    exact ⟨rfl, rfl, rfl⟩
  · cases hdoc
  · obtain ⟨declared, -, hdoc⟩ := bind_eq_ok hdoc
    cases hdoc
    exact ⟨rfl, rfl, rfl⟩

theorem isRead_of_ofText {path text : String} {doc : Document} (h : ofText path text = .ok doc) :
    doc.IsRead ∧ doc.path = path ∧ doc.text = text := by
  obtain ⟨_, -, rfl, rfl, -⟩ := exists_events_of_ofText h
  exact ⟨h, rfl, rfl⟩

theorem parseText_eq_ok {path text : String} {doc : Document} :
    parseText path text = .ok doc ↔ doc.IsRead ∧ doc.path = path ∧ doc.text = text := by
  constructor
  · intro h
    exact isRead_of_ofText (mapError_eq_ok h)
  · rintro ⟨hread, rfl, rfl⟩
    unfold parseText
    rw [hread]
    rfl

theorem parse_toUTF8 (path text : String) : parse path text.toUTF8 = parseText path text := by
  unfold parse parseText
  rw [Text.Utf8.decode_toUTF8]
  rfl

theorem parse_eq_ok {path : String} {bytes : ByteArray} {doc : Document} :
    parse path bytes = .ok doc ↔ doc.IsRead ∧ doc.path = path ∧ doc.text.toUTF8 = bytes := by
  constructor
  · intro h
    obtain ⟨text, htext, hdoc⟩ := bind_eq_ok (mapError_eq_ok h)
    obtain ⟨hread, hpath, rfl⟩ := isRead_of_ofText hdoc
    exact ⟨hread, hpath, Text.Utf8.toUTF8_of_decode (mapError_eq_ok htext)⟩
  · rintro ⟨hread, rfl, rfl⟩
    rw [parse_toUTF8, parseText_eq_ok]
    exact ⟨hread, rfl, rfl⟩

end Document

end ProcessLint
