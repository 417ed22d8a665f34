import GlPlayback.Command.Element
import Mathlib.Algebra.Ring.Nat

/-!
Decoding the bytes of a payload loses none of them, and gives the same elements wherever they lie.
The ranges of elements are ranges of the bytes.
-/
namespace GlPlayback

theorem length_bytesOfWord (size word : Nat) : (bytesOfWord size word).length = size := by
  induction size generalizing word with
  | zero => rfl
  | succ size ih => rw [bytesOfWord, List.length_cons, ih]

theorem bytesOfWord_wordOfBytes (bytes : List UInt8) :
    bytesOfWord bytes.length (wordOfBytes bytes) = bytes := by
  induction bytes with
  | nil => rfl
  | cons b rest ih =>
      have hlow : UInt8.ofNat (b.toNat + 256 * wordOfBytes rest) = b := by
        rw [← UInt8.toNat_inj, UInt8.toNat_ofNat']
        have hb := b.toNat_lt
        omega
      have hhigh : (b.toNat + 256 * wordOfBytes rest) / 256 = wordOfBytes rest := by
        have hb := b.toNat_lt
        omega
      simp only [List.length_cons, wordOfBytes, bytesOfWord, hlow, hhigh, ih]

theorem wordOfBytes_lt (bytes : List UInt8) : wordOfBytes bytes < 256 ^ bytes.length := by
  induction bytes with
  | nil => exact Nat.one_pos
  | cons b rest ih =>
      have hb := b.toNat_lt
      rw [wordOfBytes, List.length_cons, Nat.pow_succ]
      omega

theorem wordAt_eq {size start : Nat} {bytes : List UInt8} (h : start + size ≤ bytes.length) :
    wordAt size bytes start = wordOfBytes ((bytes.drop start).take size) := by
  induction size generalizing start with
  | zero => rfl
  | succ size ih =>
      have hstart : start < bytes.length := by omega
      have hfirst : bytes.getD start 0 = bytes[start] := by
        rw [List.getD_eq_getElem?_getD, List.getElem?_eq_getElem hstart, Option.getD_some]
      rw [wordAt, ih (by omega), hfirst, List.drop_eq_getElem_cons hstart, List.take_succ_cons,
        wordOfBytes]

theorem length_wordsOfBytes (size count : Nat) (bytes : List UInt8) :
    (wordsOfBytes size count bytes).length = count := by
  induction count generalizing bytes with
  | zero => rfl
  | succ count ih => rw [wordsOfBytes, List.length_cons, ih]

theorem getElem?_wordsOfBytes (size : Nat) {count i : Nat} (bytes : List UInt8) (hi : i < count) :
    (wordsOfBytes size count bytes)[i]? =
      some (wordOfBytes ((bytes.drop (i * size)).take size)) := by
  induction count generalizing bytes i with
  | zero => exact absurd hi (Nat.not_lt_zero i)
  | succ count ih =>
      cases i with
      | zero => rw [wordsOfBytes, List.getElem?_cons_zero, Nat.zero_mul, List.drop_zero]
      | succ i =>
          rw [wordsOfBytes, List.getElem?_cons_succ, ih _ (Nat.lt_of_succ_lt_succ hi),
            List.drop_drop, Nat.succ_mul, Nat.add_comm]

theorem lt_of_mem_wordsOfBytes {size count w : Nat} {bytes : List UInt8}
    (hw : w ∈ wordsOfBytes size count bytes) : w < 256 ^ size := by
  obtain ⟨i, hi⟩ := List.getElem?_of_mem hw
  have hinside := (List.getElem?_eq_some_iff.mp hi).1
  rw [length_wordsOfBytes] at hinside
  rw [getElem?_wordsOfBytes size bytes hinside, Option.some_inj] at hi
  rw [← hi]
  exact Nat.lt_of_lt_of_le (wordOfBytes_lt _)
    (Nat.pow_le_pow_right (by decide) (List.length_take_le size _))

/-- Words are the same where they lie and copied. -/
theorem wordsInPlace_eq (size : Nat) (bytes : List UInt8) :
    wordsInPlace size bytes = wordsOfBytes size (bytes.length / size) bytes := by
  refine List.ext_getElem? fun i => ?_
  by_cases hi : i < bytes.length / size
  · have hinside : i * size + size ≤ bytes.length := by
      have hwhole := Nat.mul_le_mul_right size (Nat.succ_le_of_lt hi)
      rw [Nat.succ_mul] at hwhole
      exact Nat.le_trans hwhole (Nat.div_mul_le_self bytes.length size)
    rw [getElem?_wordsOfBytes size bytes hi, wordsInPlace, List.getElem?_map,
      List.getElem?_range hi, Option.map_some, wordAt_eq hinside]
  · have hout := Nat.le_of_not_lt hi
    rw [List.getElem?_eq_none (by rwa [wordsInPlace, List.length_map, List.length_range]),
      List.getElem?_eq_none (by rwa [length_wordsOfBytes])]

theorem flatMap_wordsOfBytes (size count : Nat) {bytes : List UInt8}
    (hlength : bytes.length = count * size) :
    (wordsOfBytes size count bytes).flatMap (bytesOfWord size) = bytes := by
  induction count generalizing bytes with
  | zero =>
      rw [Nat.zero_mul] at hlength
      rw [List.eq_nil_of_length_eq_zero hlength]
      rfl
  | succ count ih =>
      have hfirst : (bytes.take size).length = size := by
        rw [List.length_take, hlength, Nat.succ_mul]
        omega
      have hrest : (bytes.drop size).length = count * size := by
        rw [List.length_drop, hlength, Nat.succ_mul]
        omega
      have hword := bytesOfWord_wordOfBytes (bytes.take size)
      rw [hfirst] at hword
      rw [wordsOfBytes, List.flatMap_cons, hword, ih hrest, List.take_append_drop]

theorem Elements.decode_bytes {type : ElementType} {bytes : List UInt8} {e : Elements}
    (h : Elements.decode type bytes = .ok e) : e.bytes = bytes := by
  simp only [decode] at h
  split at h
  · cases h
  · next hsize =>
      cases h
      refine flatMap_wordsOfBytes type.size _ ?_
      exact (Nat.div_mul_cancel (Nat.dvd_of_mod_eq_zero (Decidable.not_not.mp hsize))).symm

namespace Elements

/-- The elements do not depend on where the bytes lie. -/
theorem decodeAt_eq (address : Nat) (type : ElementType) (bytes : List UInt8) :
    decodeAt address type bytes = decode type bytes := by
  rw [decodeAt, decode, wordsInPlace_eq, ite_self]

theorem length_bytes (e : Elements) : e.bytes.length = e.count * e.type.size := by
  have hlength (words : List Nat) :
      (words.flatMap (bytesOfWord e.type.size)).length = words.length * e.type.size := by
    induction words with
    | nil => rw [List.flatMap_nil, List.length_nil, List.length_nil, Nat.zero_mul]
    | cons word rest ih =>
        rw [List.flatMap_cons, List.length_append, length_bytesOfWord, ih, List.length_cons,
          Nat.succ_mul, Nat.add_comm]
  exact hlength e.words

/-- Where a range of elements ends: `limit` many beyond its start, or behind the last. -/
def rangeEnd (e : Elements) (start : Nat) (limit : Option Nat) : Nat :=
  limit.elim e.count fun n => start + n

theorem start_le_rangeEnd {e : Elements} {start : Nat} (limit : Option Nat)
    (h : start ≤ e.count) : start ≤ e.rangeEnd start limit := by
  cases limit with
  | none => exact h
  | some n => exact Nat.le_add_right start n

/-- The end that is checked is cut off at the largest word. -/
theorem elim_stop_eq {e : Elements} (hcount : e.count < UInt64.size) (start : Nat)
    (limit : Option Nat) :
    (limit.elim e.count fun n => min (start + n) (UInt64.size - 1)) =
      min (e.rangeEnd start limit) (UInt64.size - 1) := by
  cases limit with
  | none => exact (Nat.min_eq_left (Nat.le_sub_one_of_lt hcount)).symm
  | some n => rfl

/-- A range of elements is the range of their bytes. -/
theorem slice_eq_ok {e : Elements} {start : Nat} {limit : Option Nat}
    (hcount : e.count < UInt64.size) (hstart : start ≤ e.count)
    (hend : e.rangeEnd start limit ≤ e.count) :
    e.slice start limit = .ok (e.bytes.extract (start * e.type.size)
      (e.rangeEnd start limit * e.type.size)) := by
  have hstop : min (e.rangeEnd start limit) (UInt64.size - 1) = e.rangeEnd start limit := by
    omega
  have hinside : ¬ (e.count < start ∨ e.count < e.rangeEnd start limit) := by omega
  simp only [slice, elim_stop_eq hcount, hstop, if_neg hinside, List.extract_eq_take_drop,
    Nat.sub_mul]

/-- A range that reaches beyond the elements is refused, wherever its end is cut off. -/
theorem slice_eq_error {e : Elements} {start : Nat} {limit : Option Nat}
    (hcount : e.count < UInt64.size - 1)
    (h : e.count < start ∨ e.count < e.rangeEnd start limit) :
    e.slice start limit = .error
      (.outOfRange start (min (e.rangeEnd start limit) (UInt64.size - 1)) e.count) := by
  have hbeyond : e.count < start ∨
      e.count < min (e.rangeEnd start limit) (UInt64.size - 1) := by
    omega
  simp only [slice, elim_stop_eq (Nat.lt_of_lt_pred hcount), if_pos hbeyond]

/-- Elements from the first to the last. -/
theorem slice_all (e : Elements) : e.slice 0 none = .ok e.bytes := by
  have hinside : ¬ (e.count < 0 ∨ e.count < e.count) := by omega
  have hall : e.bytes.length ≤ (e.count - 0) * e.type.size := Nat.le_of_eq e.length_bytes
  simp only [slice, Option.elim_none, if_neg hinside, Nat.zero_mul, List.drop_zero]
  rw [List.take_of_length_le hall]

/-- What the elements of a payload are: as many as its bytes give, with its bytes in their order,
each the number that its bytes stand for, and singles of the same bits. -/
structure Reads (e : Elements) (type : ElementType) (bytes : List UInt8) : Prop where
  type_eq : e.type = type
  count_eq : e.count = bytes.length / type.size
  bytes_eq : e.bytes = bytes
  word : ∀ i < e.count, e.words[i]? = some (wordAt type.size bytes (i * type.size))
  single : type = .float32 →
    ∃ singles, e.asSingles? = some singles ∧ singles.map (fun s => s.bits.toNat) = e.words

theorem decode_eq_error_iff {type : ElementType} {bytes : List UInt8} :
    decode type bytes = .error (.length bytes.length type.size) ↔ ¬ type.size ∣ bytes.length := by
  rw [Nat.dvd_iff_mod_eq_zero, decode]
  split
  · next h => exact iff_of_true rfl h
  · next h => exact iff_of_false nofun h

theorem decode_eq_ok {type : ElementType} {bytes : List UInt8}
    (h : type.size ∣ bytes.length) :
    decode type bytes =
      .ok ⟨type, wordsOfBytes type.size (bytes.length / type.size) bytes⟩ := by
  rw [decode, if_neg (not_not_intro (Nat.mod_eq_zero_of_dvd h))]

theorem Reads.of_dvd {type : ElementType} {bytes : List UInt8} (h : type.size ∣ bytes.length) :
    Reads ⟨type, wordsOfBytes type.size (bytes.length / type.size) bytes⟩ type bytes where
  type_eq := rfl
  count_eq := length_wordsOfBytes ..
  bytes_eq := flatMap_wordsOfBytes type.size _ (Nat.div_mul_cancel h).symm
  word i hi := by
    rw [count, length_wordsOfBytes] at hi
    simp only [← wordsInPlace_eq]
    rw [wordsInPlace, List.getElem?_map, List.getElem?_range hi, Option.map_some]
  single := by
    rintro rfl
    refine ⟨_, rfl, ?_⟩
    rw [List.map_map]
    refine (List.map_congr_left fun w hw => ?_).trans (List.map_id _)
    -- Four bytes do not go beyond the bits of a single.
    exact UInt32.toNat_ofNat_of_lt' (lt_of_mem_wordsOfBytes hw)

/-- The elements of bytes that lie in memory are fewer than the largest word. -/
theorem Reads.count_lt {e : Elements} {type : ElementType} {bytes : List UInt8}
    (h : e.Reads type bytes) (hbytes : bytes.length < 2 ^ 63) : e.count < UInt64.size - 1 := by
  have hle : e.count ≤ bytes.length := h.count_eq ▸ Nat.div_le_self _ _
  rw [UInt64.size]
  omega

/-- The round trip of a payload. Its bytes, wherever they lie, are refused exactly if the size of
an element does not divide their number. Otherwise the elements are the same at every address, and
a range of them is the range of the bytes, or is refused if it reaches beyond them; no end of a
range that is read goes beyond the bytes, so that none of them overflows. -/
theorem decodeAt_faithful (type : ElementType) (bytes : List UInt8)
    (hbytes : bytes.length < 2 ^ 63) :
    (∀ address, decodeAt address type bytes = .error (.length bytes.length type.size) ↔
      ¬ type.size ∣ bytes.length) ∧
    (type.size ∣ bytes.length →
      ∃ e, (∀ address, decodeAt address type bytes = .ok e) ∧ e.Reads type bytes ∧
        ∀ start limit,
          (start ≤ e.count ∧ e.rangeEnd start limit ≤ e.count →
            start * type.size ≤ e.rangeEnd start limit * type.size ∧
            e.rangeEnd start limit * type.size ≤ bytes.length ∧
            e.slice start limit = .ok (bytes.extract (start * type.size)
              (e.rangeEnd start limit * type.size))) ∧
          (¬ (start ≤ e.count ∧ e.rangeEnd start limit ≤ e.count) →
            e.slice start limit = .error (.outOfRange start
              (min (e.rangeEnd start limit) (UInt64.size - 1)) e.count))) := by
  refine ⟨fun address => ?_, fun hdvd => ?_⟩
  · rw [decodeAt_eq, decode_eq_error_iff]
  have hreads := Reads.of_dvd hdvd
  generalize he : Elements.mk type
    (wordsOfBytes type.size (bytes.length / type.size) bytes) = e at hreads
  have hwhole : e.count * type.size = bytes.length := by
    rw [hreads.count_eq, Nat.div_mul_cancel hdvd]
  have hcount := hreads.count_lt hbytes
  refine ⟨e, fun address => ?_, hreads, fun start limit => ⟨?inside, ?beyond⟩⟩
  · rw [decodeAt_eq, decode_eq_ok hdvd, he]
  case inside =>
    rintro ⟨hstart, hend⟩
    refine ⟨Nat.mul_le_mul_right _ (start_le_rangeEnd limit hstart), ?_, ?_⟩
    · exact hwhole ▸ Nat.mul_le_mul_right _ hend
    · rw [slice_eq_ok (Nat.lt_of_lt_pred hcount) hstart hend, hreads.bytes_eq, hreads.type_eq]
  case beyond =>
    intro hout
    exact slice_eq_error hcount (by omega)

/-- The bits of a NaN at an odd address. -/
theorem decodeAt_nan :
    ([0x01, 0x00, 0xC0, 0xFF] : List UInt8).length < 2 ^ 63 ∧
    ∃ e, decodeAt 7 .float32 [0x01, 0x00, 0xC0, 0xFF] = .ok e ∧ e.count = 1 ∧
      e.words[0]? = some 0xFFC00001 ∧ e.slice 0 (some (2 ^ 64 - 1)) =
        .error (.outOfRange 0 (2 ^ 64 - 1) 1) := by
  obtain ⟨-, hdecoded⟩ := decodeAt_faithful .float32 [0x01, 0x00, 0xC0, 0xFF] (by decide)
  obtain ⟨e, hsame, hreads, hslice⟩ := hdecoded (by decide)
  have hcount : e.count = 1 := hreads.count_eq
  have hbeyond := (hslice 0 (some (2 ^ 64 - 1))).2
  simp only [rangeEnd, hcount] at hbeyond
  exact ⟨by decide, e, hsame 7, hcount, hreads.word 0 (by omega), hbeyond (by decide)⟩

end Elements

end GlPlayback
