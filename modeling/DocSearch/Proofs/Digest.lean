import DocSearch.Engine.Arena
import Mathlib.Algebra.GroupWithZero.Nat

/-!
# What the name of a table is a digest of

The name of a temporary table is a digest of its parts, each of them preceded by its
length.  Unless a part is so long that eight bytes do not hold its length, the parts are
determined by what is digested.  So tables of one name have the same parts, or else two
different messages have digests that start with the same sixteen bytes.

## Main definitions

* `tableDigest` — the bytes of the digest that the name of a table is made of.

## Main results

* `lengthPrefixed_append_inj` — a message starts with one part at most.
* `tableDigestInput_injective` — the parts are determined by what is digested.
* `tempTableName_inj` — tables of one name have one digest.
-/

namespace DocSearch

/-! ### The bytes of a text -/

theorem toList_loop_eq (bytes : ByteArray) (i : Nat) (read : List UInt8) :
    ByteArray.toList.loop bytes i read = read.reverse ++ bytes.data.toList.drop i := by
  induction i, read using ByteArray.toList.loop.induct bytes with
  | case1 i read h ih =>
    have hlength : i < bytes.data.toList.length := by simpa using h
    have hget : bytes.get! i = bytes.data.toList[i] := by
      show bytes.data[i]! = bytes.data.toList[i]
      rw [getElem!_pos bytes.data i h, Array.getElem_toList]
    rw [ByteArray.toList.loop, if_pos h, ih, List.drop_eq_getElem_cons hlength, hget]
    simp
  | case2 i read h =>
    have hlength : bytes.data.toList.length ≤ i := by simpa using h
    rw [ByteArray.toList.loop, if_neg h, List.drop_of_length_le hlength, List.append_nil]

/-- A text is determined by its bytes. -/
theorem utf8_injective {s t : String} (h : Text.utf8 s = Text.utf8 t) : s = t := by
  have hbytes : ∀ bytes : ByteArray, bytes.toList = bytes.data.toList := fun bytes => by
    rw [ByteArray.toList, toList_loop_eq]
    rfl
  rw [Text.utf8, Text.utf8, hbytes, hbytes] at h
  exact String.toByteArray_inj.mp (ByteArray.ext (Array.toList_inj.mp h))

/-! ### Lengths -/

namespace Digest

theorem littleEndian_succ (count n : Nat) :
    littleEndian (count + 1) n = UInt8.ofNat n :: littleEndian count (n / 256) := by
  rw [littleEndian, List.range_succ_eq_map, List.map_cons, List.map_map, littleEndian]
  congr 1
  · simp
  · refine List.map_congr_left fun i _ => ?_
    have hsucc : Nat.pow 256 (i + 1) = Nat.pow 256 i * 256 := rfl
    rw [Function.comp_apply, hsucc, Nat.mul_comm, Nat.div_div_eq_div_mul]

theorem length_littleEndian (count n : Nat) : (littleEndian count n).length = count := by
  simp [littleEndian]

/-- A number that fits is determined by its bytes. -/
theorem littleEndian_injective {count m n : Nat} (hm : m < 256 ^ count) (hn : n < 256 ^ count)
    (h : littleEndian count m = littleEndian count n) : m = n := by
  induction count generalizing m n with
  | zero => omega
  | succ count ih =>
    rw [littleEndian_succ, littleEndian_succ, List.cons.injEq] at h
    obtain ⟨hlow, hhigh⟩ := h
    have hlow := congrArg UInt8.toNat hlow
    rw [UInt8.toNat_ofNat', UInt8.toNat_ofNat'] at hlow
    rw [Nat.pow_succ, Nat.mul_comm] at hm hn
    have hhigh := ih (Nat.div_lt_of_lt_mul hm) (Nat.div_lt_of_lt_mul hn) hhigh
    omega

theorem hexDigit_injective {m n : Nat} (hm : m < 16) (hn : n < 16)
    (h : hexDigit m = hexDigit n) : m = n := by
  have hall : ∀ m n : Fin 16, hexDigit m = hexDigit n → m = n := by decide
  exact congrArg Fin.val (hall ⟨m, hm⟩ ⟨n, hn⟩ h)

/-- Bytes are determined by their digits. -/
theorem hex_injective {x y : List UInt8} (h : hex x = hex y) : x = y := by
  rw [hex, hex, String.ofList_inj] at h
  induction x generalizing y with
  | nil =>
    cases y with
    | nil => rfl
    | cons c y => simp at h
  | cons b x ih =>
    cases y with
    | nil => simp at h
    | cons c y =>
      simp only [List.flatMap_cons, List.cons_append, List.nil_append, List.cons.injEq] at h
      obtain ⟨hhigh, hlow, hrest⟩ := h
      have hb := b.toNat_lt
      have hc := c.toNat_lt
      have hhigh := hexDigit_injective (by omega) (by omega) hhigh
      have hlow := hexDigit_injective (by omega) (by omega) hlow
      have hbyte : b = c := UInt8.toNat_inj.mp (by omega)
      rw [hbyte, ih hrest]

end Digest

/-! ### Parts -/

/-- Eight bytes hold the length of a part. -/
def IsShort (part : String) : Prop := (Text.utf8 part).length < 2 ^ 64

/-- **A message starts with one part at most.** -/
theorem lengthPrefixed_append_inj {s t : String} {x y : List UInt8} (hs : IsShort s)
    (ht : IsShort t) (h : lengthPrefixed s ++ x = lengthPrefixed t ++ y) : s = t ∧ x = y := by
  simp only [lengthPrefixed, List.append_assoc] at h
  have hlength : (Digest.littleEndian 8 (Text.utf8 s).length).length =
      (Digest.littleEndian 8 (Text.utf8 t).length).length := by
    rw [Digest.length_littleEndian, Digest.length_littleEndian]
  obtain ⟨hbytes, hrest⟩ := List.append_inj h hlength
  have hsame : (Text.utf8 s).length = (Text.utf8 t).length :=
    Digest.littleEndian_injective hs ht hbytes
  obtain ⟨hparts, hx⟩ := List.append_inj hrest hsame
  exact ⟨utf8_injective hparts, hx⟩

theorem lengthPrefixed_ne_nil (s : String) : lengthPrefixed s ≠ [] := by
  rw [lengthPrefixed, Digest.littleEndian_succ]
  exact List.cons_ne_nil _ _

/-- **The parts are determined by what is digested.** -/
theorem tableDigestInput_injective {parts parts' : List String} (hparts : ∀ s ∈ parts, IsShort s)
    (hparts' : ∀ s ∈ parts', IsShort s) (h : tableDigestInput parts = tableDigestInput parts') :
    parts = parts' := by
  induction parts generalizing parts' with
  | nil =>
    cases parts' with
    | nil => rfl
    | cons t parts' => exact absurd (List.append_eq_nil_iff.mp h.symm).1 (lengthPrefixed_ne_nil t)
  | cons s parts ih =>
    cases parts' with
    | nil => exact absurd (List.append_eq_nil_iff.mp h).1 (lengthPrefixed_ne_nil s)
    | cons t parts' =>
      rw [List.forall_mem_cons] at hparts hparts'
      obtain ⟨rfl, hrest⟩ := lengthPrefixed_append_inj hparts.1 hparts'.1 h
      rw [ih hparts.2 hparts'.2 hrest]

/-- The bytes that the name of a table is made of. -/
def tableDigest (parts : List String) : List UInt8 :=
  (Digest.sha256 (tableDigestInput parts)).take 16

theorem tempTableName_inj {parts parts' : List String}
    (h : tempTableName parts = tempTableName parts') : tableDigest parts = tableDigest parts' := by
  rw [tempTableName, tempTableName] at h
  have hlists := congrArg String.toList h
  rw [String.toList_append, String.toList_append] at hlists
  exact Digest.hex_injective (String.toList_inj.mp (List.append_cancel_left hlists))

end DocSearch
