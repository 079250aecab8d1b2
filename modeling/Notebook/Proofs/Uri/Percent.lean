import Notebook.Proofs.Text.Utf8
import Notebook.Uri.Percent
/-!
# Percent encoding is undone by decoding

Whatever characters stand for themselves, as long as the percent sign does not, decoding gives back
the text that was encoded.
-/
namespace Notebook.Uri

theorem hexValue?_hexDigit {n : Nat} (digit : n < 16) : hexValue? (hexDigit n) = some n := by
  interval_cases n <;> decide

/-! ## Octets -/

theorem decodeOctets_encodeOctet {octet : Nat} (bound : octet < 0x100) (rest : Text) :
    decodeOctets (encodeOctet octet ++ rest) = octet :: decodeOctets rest := by
  have high : hexValue? (hexDigit (octet / 16)) = some (octet / 16) :=
    hexValue?_hexDigit (by omega)
  have low : hexValue? (hexDigit (octet % 16)) = some (octet % 16) :=
    hexValue?_hexDigit (by omega)
  simp only [encodeOctet, List.cons_append, List.nil_append, decodeOctets, high, low]
  rw [Nat.div_add_mod]

theorem decodeOctets_encodeOctets {octets : List Nat} (bounds : ∀ octet ∈ octets, octet < 0x100)
    (rest : Text) : decodeOctets (octets.flatMap encodeOctet ++ rest) = octets ++ decodeOctets rest := by
  induction octets with
  | nil => rfl
  | cons octet more ih =>
    obtain ⟨bound, bounds⟩ := List.forall_mem_cons.mp bounds
    rw [List.flatMap_cons, List.append_assoc, decodeOctets_encodeOctet bound, ih bounds,
      List.cons_append]

/-- A character that begins no triple is read as what it is. -/
theorem decodeOctets_cons {c : Char} (other : c ≠ '%') (rest : Text) :
    decodeOctets (c :: rest) = Utf8.encodeChar c ++ decodeOctets rest := by
  rw [decodeOctets]
  rintro a b more rfl
  exact absurd rfl other

/-! ## Texts -/

theorem decodeOctets_encodeWith {stands : Char → Bool} (percent : stands '%' = false) (text : Text) :
    decodeOctets (encodeWith stands text) = Utf8.encode text := by
  unfold encodeWith Utf8.encode
  induction text with
  | nil => rfl
  | cons c rest ih =>
    rw [List.flatMap_cons, List.flatMap_cons]
    split
    next plain =>
      have other : c ≠ '%' := by
        rintro rfl
        rw [percent] at plain
        cases plain
      rw [List.singleton_append, decodeOctets_cons other, ih]
    next => rw [decodeOctets_encodeOctets (Utf8.encodeChar_lt c), ih]

theorem decode_encodeWith {stands : Char → Bool} (percent : stands '%' = false) (text : Text) :
    decode (encodeWith stands text) = text := by
  rw [decode, decodeOctets_encodeWith percent, Utf8.decode_encode]

/-- What was encoded is read back as it was. -/
theorem decode_encode (text : Text) : decode (encode text) = text :=
  decode_encodeWith rfl text

/-! ## What an encoded text is made of -/

theorem isPlain_hexDigit {n : Nat} (digit : n < 16) : isPlain (hexDigit n) = true := by
  interval_cases n <;> decide

/-- Besides plain characters only the percent sign is written. -/
theorem mem_encode {text : Text} {c : Char} (member : c ∈ encode text) : isPlain c = true ∨ c = '%' := by
  obtain ⟨whole, -, member⟩ := List.mem_flatMap.mp member
  split at member
  next plain => exact .inl (List.mem_singleton.mp member ▸ plain)
  next =>
    obtain ⟨octet, written, member⟩ := List.mem_flatMap.mp member
    have bound := Utf8.encodeChar_lt whole octet written
    simp only [encodeOctet, List.mem_cons, List.not_mem_nil, or_false] at member
    rcases member with rfl | rfl | rfl
    · exact .inr rfl
    · exact .inl (isPlain_hexDigit (by omega))
    · exact .inl (isPlain_hexDigit (by omega))

theorem encode_eq_nil_iff {text : Text} : encode text = [] ↔ text = [] := by
  constructor
  · intro empty
    rw [← decode_encode text, empty]
    rfl
  · rintro rfl
    rfl

end Notebook.Uri
