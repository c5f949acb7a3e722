/-!
# Texts as bytes

Payloads travel as bytes.  `encode` writes a text in UTF-8 and `decode?` reads one, failing if the
bytes are no text; `decode?_encode` says that reading undoes writing.
-/

set_option autoImplicit false

namespace Pulse.Text.Utf8

/-- The bytes of a text. -/
def encode (s : String) : List UInt8 :=
  s.toList.flatMap String.utf8EncodeChar

/-- The text that the bytes write. -/
def decode? (bytes : List UInt8) : Option String :=
  String.fromUTF8? bytes.toByteArray

theorem encode_toByteArray (s : String) : (encode s).toByteArray = s.toByteArray :=
  (String.utf8Encode_toList : s.toList.utf8Encode = s.toByteArray)

theorem decode?_encode (s : String) : decode? (encode s) = some s := by
  simp only [decode?, encode_toByteArray, String.fromUTF8?]
  rw [dif_pos s.isValidUTF8]
  rfl

end Pulse.Text.Utf8
