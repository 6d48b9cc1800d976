import Hlib.PercentCoding
import Hlib.UriEncoding

namespace Hlib

open PercentCoding

namespace UriEncoding

/-- The characters that a URI holds as they are. -/
def unreservedCharacters : List Byte :=
  literal "ABCDEFGHIJKLMNOPQRSTUVWXYZabcdefghijklmnopqrstuvwxyz0123456789-._~"

def unreserved (c : Byte) : Bool := unreservedCharacters.contains c

theorem needsEscaping_eq (c : Byte) : needsEscaping c = !unreserved c := by
  have all : ∀ c : Byte, needsEscaping c = !unreserved c := by decide +kernel
  exact all c

/-- A `char` is negative from 128 on; the mask leaves the digits of its eight bits. -/
theorem hdigit_nibbles (c : Byte) :
    hdigit (c.sshiftRight 4 &&& 0x0f).toNat = hexDigit (c.toNat / 16) ∧
      hdigit (c.sshiftRight 0 &&& 0x0f).toNat = hexDigit (c.toNat % 16) := by
  have all : ∀ c : Byte, hdigit (c.sshiftRight 4 &&& 0x0f).toNat = hexDigit (c.toNat / 16) ∧
      hdigit (c.sshiftRight 0 &&& 0x0f).toNat = hexDigit (c.toNat % 16) := by decide +kernel
  exact all c

theorem percent_reserved : unreserved PercentCoding.percent = false := by decide +kernel

theorem escapeNext_eq (escaped : List Byte) (c : Byte) :
    escapeNext escaped c = escaped ++ encodeByte unreserved c := by
  have reserved := needsEscaping_eq c
  unfold escapeNext
  cases hc : unreserved c with
  | true =>
    rw [hc] at reserved
    rw [reserved, encodeByte_plain hc]
    rfl
  | false =>
    obtain ⟨high, low⟩ := hdigit_nibbles c
    rw [hc] at reserved
    rw [reserved, encodeByte_triplet hc, high, low]
    rfl

theorem escape_eq (string : List Byte) : escape string = encode unreserved string := by
  induction string using List.reverseRecOn with
  | nil => rfl
  | append_singleton string c ih =>
    rw [escape_append, List.foldl_cons, List.foldl_nil, ih, escapeNext_eq, encode_append, encode_cons]
    exact congrArg _ (List.append_nil _).symm

/-- Escaping is the encoding of RFC 3986, which loses nothing. -/
theorem escape_faithful (string : List Byte) :
    Encoded unreserved (escape string) ∧
      (∀ before c after, string = before ++ c :: after → unreserved c = true →
        escape string = escape before ++ c :: escape after) ∧
      decode (escape string) = some string ∧
      (∀ string', escape string = escape string' → string = string') ∧
      ∀ string', escape (string ++ string') = escape string ++ escape string' := by
  simp only [escape_eq]
  refine ⟨encoded_encode string, ?_, decode_encode percent_reserved string, ?_, ?_⟩
  · rintro before c after rfl hc
    rw [encode_append, encode_cons, encodeByte_plain hc]
    rfl
  · exact fun string' same => encode_injective percent_reserved same
  · exact fun string' => encode_append string string'

end UriEncoding

end Hlib
