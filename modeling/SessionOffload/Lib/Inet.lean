import Mathlib.Data.Nat.Digits.Lemmas

/-! Addresses of four bytes: the integer the bytes are in one of the two orders, and the
text of four decimal numbers. Both determine the bytes. -/
namespace Inet

inductive ByteOrder where
  | little | big
  deriving DecidableEq, Repr

def intFromBytes (order : ByteOrder) (bytes : List (BitVec 8)) : Nat :=
  match order with
  | .little => Nat.ofDigits 256 (bytes.map BitVec.toNat)
  | .big => Nat.ofDigits 256 (bytes.reverse.map BitVec.toNat)

theorem bytes_lt (l : List (BitVec 8)) : ∀ d ∈ l.map BitVec.toNat, d < 256 := by
  intro d member
  obtain ⟨byte, _, rfl⟩ := List.mem_map.mp member
  exact byte.isLt

theorem ofDigits_bytes_inj {l l' : List (BitVec 8)} (length : l.length = l'.length)
    (same : Nat.ofDigits 256 (l.map BitVec.toNat) = Nat.ofDigits 256 (l'.map BitVec.toNat)) :
    l = l' := by
  have digits := Nat.ofDigits_inj_of_len_eq (by decide) (by simpa using length) (bytes_lt l)
    (bytes_lt l') same
  exact List.map_injective_iff.mpr (fun _ _ => BitVec.eq_of_toNat_eq) digits

theorem intFromBytes_inj {order : ByteOrder} {l l' : List (BitVec 8)}
    (length : l.length = l'.length)
    (same : intFromBytes order l = intFromBytes order l') : l = l' := by
  cases order with
  | little => exact ofDigits_bytes_inj length same
  | big => exact List.reverse_injective (ofDigits_bytes_inj (by simpa using length) same)

theorem intFromBytes_lt (order : ByteOrder) (l : List (BitVec 8)) :
    intFromBytes order l < 256 ^ l.length := by
  have below (l : List (BitVec 8)) : Nat.ofDigits 256 (l.map BitVec.toNat) < 256 ^ l.length := by
    simpa using Nat.ofDigits_lt_base_pow_length (by decide) (bytes_lt l)
  cases order with
  | little => exact below l
  | big =>
    have reversed := below l.reverse
    rw [List.length_reverse] at reversed
    exact reversed

def numeral (byte : BitVec 8) : List Char := Nat.toDigits 10 byte.toNat

def octet (part : List Char) : Option (BitVec 8) :=
  ((List.range 256).map (BitVec.ofNat 8)).find? fun byte => numeral byte = part

/-- inet_pton of the family AF_INET: four octets with dots between them. -/
def inetPton (text : String) : Option (List (BitVec 8)) :=
  let parts := text.toList.splitOn '.'
  if parts.length = 4 then parts.mapM octet else none

def dotted (bytes : List (BitVec 8)) : String :=
  String.ofList (['.'].intercalate (bytes.map numeral))

theorem numeral_inj {a b : BitVec 8} (same : numeral a = numeral b) : a = b := by
  apply BitVec.eq_of_toNat_eq
  calc
    a.toNat = Nat.ofDigitChars 10 (numeral a) 0 := Nat.ofDigitChars_ten_toDigits.symm
    _ = Nat.ofDigitChars 10 (numeral b) 0 := by rw [same]
    _ = b.toNat := Nat.ofDigitChars_ten_toDigits

theorem octet_iff {part : List Char} {byte : BitVec 8} :
    octet part = some byte ↔ part = numeral byte := by
  constructor
  · intro read
    have spelled : numeral byte = part := by simpa using List.find?_some read
    exact spelled.symm
  · rintro rfl
    cases read : octet (numeral byte) with
    | none =>
      have listed : byte ∈ (List.range 256).map (BitVec.ofNat 8) :=
        List.mem_map.mpr ⟨byte.toNat, List.mem_range.mpr byte.isLt, BitVec.ofNat_toNat ..⟩
      have refused := List.find?_eq_none.mp read byte listed
      simp at refused
    | some other =>
      have same : numeral other = numeral byte := by simpa using List.find?_some read
      rw [numeral_inj same]

theorem octets_iff {parts : List (List Char)} {bytes : List (BitVec 8)} :
    parts.mapM octet = some bytes ↔ parts = bytes.map numeral := by
  induction parts generalizing bytes with
  | nil =>
    cases bytes <;> simp
  | cons part rest ih =>
    rw [List.mapM_cons]
    constructor
    · intro read
      simp only [Option.bind_eq_bind, Option.bind_eq_some_iff] at read
      obtain ⟨byte, here, others, later, all⟩ := read
      cases Option.some.inj all
      rw [List.map_cons, octet_iff.mp here, ih.mp later]
    · intro spelled
      cases bytes with
      | nil => cases spelled
      | cons byte others =>
        obtain ⟨here, later⟩ := List.cons.inj spelled
        rw [octet_iff.mpr here, ih.mpr later]
        rfl

theorem dot_not_mem_numeral (byte : BitVec 8) : '.' ∉ numeral byte := by
  intro member
  have digit := Nat.isDigit_of_mem_toDigits (by decide) (by decide) member
  exact absurd digit (by decide)

theorem inetPton_iff {text : String} {bytes : List (BitVec 8)} :
    inetPton text = some bytes ↔ bytes.length = 4 ∧ text = dotted bytes := by
  simp only [inetPton]
  constructor
  · intro read
    split at read
    · next four =>
      have parts := octets_iff.mp read
      constructor
      · simpa [parts] using four
      · rw [dotted, ← parts, List.intercalate_splitOn, String.ofList_toList]
    · cases read
  · rintro ⟨four, rfl⟩
    have parts : (dotted bytes).toList.splitOn '.' = bytes.map numeral := by
      rw [dotted, String.toList_ofList]
      refine List.splitOn_intercalate '.' ?_ ?_
      · intro part member
        obtain ⟨byte, _, rfl⟩ := List.mem_map.mp member
        exact dot_not_mem_numeral byte
      · intro empty
        simp [List.map_eq_nil_iff.mp empty] at four
    rw [parts, List.length_map, if_pos four]
    exact octets_iff.mpr rfl

end Inet
