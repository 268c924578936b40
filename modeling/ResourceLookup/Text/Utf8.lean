import ResourceLookup.Text.Basic

/-!
# Bytes of a text

A text is written in UTF-8. Bytes are read as UTF-8 where they are well formed, and one
character per byte otherwise, so that every sequence of bytes can be read.
-/

namespace ResourceLookup.Text

/-- The UTF-8 bytes of a text. -/
def utf8 (t : Text) : List UInt8 := t.flatMap String.utf8EncodeChar

/-- The text that bytes spell in UTF-8, unless they are malformed. -/
def ofUtf8? (bytes : List UInt8) : Option Text := bytes.toByteArray.utf8Decode?.map Array.toList

/-- The text with one character for each byte. -/
def ofLatin1 (bytes : List UInt8) : Text := bytes.map (fun b => Char.ofNat b.toNat)

/-- The text that bytes spell, in UTF-8 where they are well formed and else byte by byte. -/
def ofBytes (bytes : List UInt8) : Text := (ofUtf8? bytes).getD (ofLatin1 bytes)

@[simp] theorem utf8_nil : utf8 [] = [] := rfl

@[simp] theorem utf8_cons (c : Char) (t : Text) :
    utf8 (c :: t) = String.utf8EncodeChar c ++ utf8 t := rfl

@[simp] theorem utf8_append (s t : Text) : utf8 (s ++ t) = utf8 s ++ utf8 t := by
  simp [utf8]

@[simp] theorem ofUtf8?_nil : ofUtf8? [] = some [] := by
  simp [ofUtf8?]

theorem ofUtf8?_utf8EncodeChar_append (c : Char) (bytes : List UInt8) :
    ofUtf8? (String.utf8EncodeChar c ++ bytes) = (ofUtf8? bytes).map (c :: ·) := by
  rw [ofUtf8?, List.toByteArray_append, ← List.utf8Encode_singleton,
    ByteArray.utf8Decode?_utf8Encode_singleton_append]
  cases h : bytes.toByteArray.utf8Decode? <;> simp [ofUtf8?, h]

/-- Reading what was written gives the text back. -/
@[simp] theorem ofUtf8?_utf8 (t : Text) : ofUtf8? (utf8 t) = some t := by
  induction t with
  | nil => simp
  | cons c t ih => rw [utf8_cons, ofUtf8?_utf8EncodeChar_append, ih]; rfl

@[simp] theorem ofBytes_utf8 (t : Text) : ofBytes (utf8 t) = t := by simp [ofBytes]

end ResourceLookup.Text
