import CodeTidy.Cache.Key
import CodeTidy.Proofs.Settings.Text
import Mathlib.Data.Nat.Digits.Defs

/-!
# Requests are told by their bytes

The bytes that stand for a request are its language, its settings and its code, each behind its
length. `encode_inj` reads the request back off them: eight bytes give the length of the language,
which gives the language and the place where the settings start, and so on. Only the lengths of the
language and of the settings are needed for that, and they have to fit in eight bytes; the text of
settings always does. If the length of the code fits too, the bytes of one request do not even start
with those of another.
-/

namespace CodeTidy

/-- The bytes of an array in a list are its data. -/
theorem toList_loop_eq (bs : ByteArray) (i : ℕ) (r : List UInt8) (hi : i ≤ bs.size) :
    ByteArray.toList.loop bs i r = r.reverse ++ bs.data.toList.drop i := by
  induction hn : bs.size - i generalizing i r with
  | zero =>
    have hend : bs.data.toList.length ≤ i := by
      show bs.size ≤ i
      omega
    rw [ByteArray.toList.loop, if_neg (by omega), List.drop_eq_nil_of_le hend, List.append_nil]
  | succ n ih =>
    have hlt : i < bs.data.toList.length := by
      show i < bs.size
      omega
    rw [ByteArray.toList.loop, if_pos (by omega), ih (i + 1) _ (by omega) (by omega),
      List.drop_eq_getElem_cons hlt, List.reverse_cons, List.append_assoc]
    have hget : bs.get! i = bs.data.toList[i] := getElem!_pos bs.data i hlt
    rw [hget]
    rfl

/-- The bytes of an array in a list are its data. -/
theorem toList_eq_data (bs : ByteArray) : bs.toList = bs.data.toList :=
  (toList_loop_eq bs 0 [] (Nat.zero_le _)).trans (by simp)

/-- A character takes four bytes at most. -/
theorem utf8ByteSize_ofList_le (s : List Char) :
    (String.ofList s).utf8ByteSize ≤ 4 * s.length := by
  induction s with
  | nil => simp
  | cons c s ih =>
    have hsize := c.utf8Size_le_four
    rw [String.ofList_cons, String.utf8ByteSize_append, String.utf8ByteSize_singleton,
      List.length_cons]
    omega

namespace Cache

/-- Bytes of a length are eight. -/
theorem length_lengthBytes (n : ℕ) : (lengthBytes n).length = 8 := by
  simp [lengthBytes]

/-- A byte is the remainder it was made of. -/
theorem toNat_ofNat_byte (n : ℕ) : (UInt8.ofNat (n % 256)).toNat = n % 256 := by
  rw [UInt8.toNat_ofNat']
  exact Nat.mod_mod n 256

/-- The lowest `k` bytes of a number are the digits of its remainder, the lowest first. -/
theorem ofDigits_lowBytes (n k : ℕ) :
    Nat.ofDigits 256 ((List.range k).map fun i => n / 256 ^ i % 256) = n % 256 ^ k := by
  induction k with
  | zero => rw [Nat.pow_zero, Nat.mod_one, List.range_zero, List.map_nil, Nat.ofDigits_nil]
  | succ k ih =>
    rw [List.range_succ, List.map_append, List.map_singleton, Nat.ofDigits_append, ih,
      List.length_map, List.length_range, Nat.ofDigits_singleton, Nat.mod_pow_succ]

/-- Eight bytes that say a length, the lowest first. -/
def SaysLength (header : List UInt8) (n : ℕ) : Prop :=
  header.length = 8 ∧ Nat.ofDigits 256 (header.map UInt8.toNat) = n

/-- The bytes of a length below `2 ^ 64` say it. -/
theorem saysLength_lengthBytes {n : ℕ} (hn : n < 2 ^ 64) : SaysLength (lengthBytes n) n := by
  refine ⟨length_lengthBytes n, ?_⟩
  have hbytes : (lengthBytes n).map UInt8.toNat
      = (List.range 8).map fun i => n / 256 ^ i % 256 := by
    unfold lengthBytes
    rw [List.map_map]
    refine List.map_congr_left ?_
    intro i _
    rw [Function.comp_apply, toNat_ofNat_byte, Nat.shiftRight_eq_div_pow, Nat.pow_mul]
  rw [hbytes, ofDigits_lowBytes, Nat.mod_eq_of_lt (by omega)]

/-- A length below `2 ^ 64` is told by its bytes. -/
theorem lengthBytes_inj {m n : ℕ} (hm : m < 2 ^ 64) (hn : n < 2 ^ 64)
    (h : lengthBytes m = lengthBytes n) : m = n := by
  rw [← (saysLength_lengthBytes hm).2, h, (saysLength_lengthBytes hn).2]

/-- A text behind its length, with the bytes that follow. -/
theorem part_append (s : String) (rest : List UInt8) :
    part s ++ rest = lengthBytes s.utf8ByteSize ++ (s.toByteArray.data.toList ++ rest) := by
  unfold part
  rw [List.append_assoc, toList_eq_data]
  rfl

/-- The bytes behind the length of two texts in front of equal bytes tell the texts. -/
theorem bytes_inj {s t : String} (h : s.toByteArray.data.toList = t.toByteArray.data.toList) :
    s = t := by
  rw [← String.toByteArray_inj]
  exact ByteArray.ext (Array.toList_inj.mp h)

/-- Two texts behind their lengths tell the texts and what follows them, if the lengths fit. -/
theorem part_append_inj {s t : String} {x y : List UInt8} (hs : s.utf8ByteSize < 2 ^ 64)
    (ht : t.utf8ByteSize < 2 ^ 64) (h : part s ++ x = part t ++ y) : s = t ∧ x = y := by
  rw [part_append, part_append] at h
  obtain ⟨hlen, hrest⟩ := List.append_inj h (by rw [length_lengthBytes, length_lengthBytes])
  have hsize := lengthBytes_inj hs ht hlen
  obtain ⟨hbytes, hxy⟩ := List.append_inj hrest hsize
  exact ⟨bytes_inj hbytes, hxy⟩

/-- Two texts behind their lengths at the end of the bytes tell the texts. -/
theorem part_inj {s t : String} (h : part s = part t) : s = t := by
  have h : part s ++ [] = part t ++ [] := by rw [h]
  rw [part_append, part_append] at h
  obtain ⟨-, hrest⟩ := List.append_inj h (by rw [length_lengthBytes, length_lengthBytes])
  rw [List.append_nil, List.append_nil] at hrest
  exact bytes_inj hrest

/-- The length of the text of settings fits. -/
theorem settings_size_lt (s : Settings) : (Json.toText s.toJson).utf8ByteSize < 2 ^ 64 := by
  have hle := utf8ByteSize_ofList_le (Json.compact s.toJson)
  have hshort := s.length_compact_le
  show (String.ofList (Json.compact s.toJson)).utf8ByteSize < 2 ^ 64
  omega

section

variable {l l' c c' : String} {s s' : Settings}

/-- The bytes of a request tell its language, its settings, and the bytes from its code on. -/
theorem encode_head_inj {x y : List UInt8} (hl : l.utf8ByteSize < 2 ^ 64)
    (hl' : l'.utf8ByteSize < 2 ^ 64) (h : encode l s c ++ x = encode l' s' c' ++ y) :
    l = l' ∧ s = s' ∧ part c ++ x = part c' ++ y := by
  unfold encode at h
  rw [List.append_assoc, List.append_assoc, List.append_assoc, List.append_assoc] at h
  obtain ⟨hll, h⟩ := part_append_inj hl hl' h
  obtain ⟨hss, h⟩ := part_append_inj (settings_size_lt s) (settings_size_lt s') h
  exact ⟨hll, Settings.toText_inj hss, h⟩

/-- A request is told by its bytes, if the name of its language is no longer than eight bytes can
say. -/
theorem encode_inj (hl : l.utf8ByteSize < 2 ^ 64) (hl' : l'.utf8ByteSize < 2 ^ 64)
    (h : encode l s c = encode l' s' c') : l = l' ∧ s = s' ∧ c = c' := by
  have happend : encode l s c ++ [] = encode l' s' c' ++ [] := by rw [h]
  obtain ⟨hll, hss, hcode⟩ := encode_head_inj hl hl' happend
  rw [List.append_nil, List.append_nil] at hcode
  exact ⟨hll, hss, part_inj hcode⟩

/-- A part is its length in eight bytes and the bytes of the text. -/
theorem part_eq (h : c.utf8ByteSize < 2 ^ 64) :
    ∃ header, SaysLength header c.utf8ByteSize ∧ part c = header ++ c.toUTF8.toList :=
  ⟨lengthBytes c.utf8ByteSize, saysLength_lengthBytes h, rfl⟩

/-- The bytes that are digested for a request are three parts, each a text in UTF-8 behind its
length in eight bytes, the lowest first: the name of the language, the text of the settings and the
code. Two requests have the same bytes only if their languages, all their settings and their codes
are the same, and the bytes of one request do not even start with those of another. -/
theorem encode_tells_request (hl : l.utf8ByteSize < 2 ^ 64) (hl' : l'.utf8ByteSize < 2 ^ 64)
    (hc : c.utf8ByteSize < 2 ^ 64) (hc' : c'.utf8ByteSize < 2 ^ 64) :
    (∃ hdl hds hdc, SaysLength hdl l.utf8ByteSize ∧
      SaysLength hds (Json.toText s.toJson).utf8ByteSize ∧ SaysLength hdc c.utf8ByteSize ∧
      encode l s c = hdl ++ l.toUTF8.toList ++ (hds ++ (Json.toText s.toJson).toUTF8.toList)
        ++ (hdc ++ c.toUTF8.toList)) ∧
    (encode l s c = encode l' s' c' ↔ l = l' ∧ s = s' ∧ c = c') ∧
    (encode l s c <+: encode l' s' c' → l = l' ∧ s = s' ∧ c = c') := by
  refine ⟨?_, ⟨encode_inj hl hl', ?_⟩, ?_⟩
  · obtain ⟨hdl, hsaysl, hpartl⟩ := part_eq hl
    obtain ⟨hds, hsayss, hparts⟩ := part_eq (settings_size_lt s)
    obtain ⟨hdc, hsaysc, hpartc⟩ := part_eq hc
    refine ⟨hdl, hds, hdc, hsaysl, hsayss, hsaysc, ?_⟩
    rw [← hpartl, ← hparts, ← hpartc]
    rfl
  · rintro ⟨rfl, rfl, rfl⟩
    rfl
  · rintro ⟨rest, hrest⟩
    have happend : encode l s c ++ rest = encode l' s' c' ++ [] := by rw [hrest, List.append_nil]
    obtain ⟨hll, hss, hcode⟩ := encode_head_inj hl hl' happend
    exact ⟨hll, hss, (part_append_inj hc hc' hcode).1⟩

end

/-- A character that moves from the language to the code is noticed, although the texts put together
stay the same. -/
theorem encode_tells_request_shifted :
    ("ab".utf8ByteSize < 2 ^ 64 ∧ "a".utf8ByteSize < 2 ^ 64 ∧ "c".utf8ByteSize < 2 ^ 64 ∧
      "bc".utf8ByteSize < 2 ^ 64) ∧
    ∀ s : Settings, encode "ab" s "c" ≠ encode "a" s "bc" := by
  have hab : "ab".utf8ByteSize < 2 ^ 64 := by decide
  have ha : "a".utf8ByteSize < 2 ^ 64 := by decide
  have hc : "c".utf8ByteSize < 2 ^ 64 := by decide
  have hbc : "bc".utf8ByteSize < 2 ^ 64 := by decide
  refine ⟨⟨hab, ha, hc, hbc⟩, ?_⟩
  intro s h
  obtain ⟨-, htells, -⟩ := encode_tells_request hab ha hc hbc
  exact absurd (htells.mp h).1 (by decide)

end Cache

end CodeTidy
