import Mathlib.Logic.Function.Basic
import Mathlib.Data.Nat.Bitwise
import Mathlib.Tactic.IntervalCases

/-!
# The simulated configuration space

`config_space` of `PCIEnumerator`, with its reads and writes of dwords, words
and bytes.  The `uint8_t` arguments are numbers below 256, with devices below 32
and functions below 8.
-/

namespace SystemcTlm.Pci

/-- `config_space` -/
structure ConfigSpace where
  find : Nat → Option (BitVec 32)

/-- `makeConfigAddress`.  The address names the dword of the offset. -/
def makeConfigAddress (bus device function offset : Nat) : Nat :=
  (bus <<< 16) ||| (device <<< 11) ||| (function <<< 8) ||| (offset &&& 0xFC)

/-- `0xFFFFFFFF` if the device is not present. -/
def readConfigDword (config : ConfigSpace) (bus device function offset : Nat) : BitVec 32 :=
  match config.find (makeConfigAddress bus device function offset) with
  | some value => value
  | none => 0xFFFFFFFF

/-- `writeConfigDword` -/
def writeConfigDword (config : ConfigSpace) (bus device function offset : Nat)
    (value : BitVec 32) : ConfigSpace where
  find := Function.update config.find (makeConfigAddress bus device function offset) (some value)

/-- The byte of a dword at a byte offset. -/
def byteOf (dword : BitVec 32) (byteOffset : Nat) : Nat :=
  ((dword >>> (byteOffset * 8)) &&& 0xFF).toNat

/-- The dword with one byte replaced. -/
def setByte (dword : BitVec 32) (byteOffset value : Nat) : BitVec 32 :=
  let mask := 0xFF#32 <<< (byteOffset * 8)
  (dword &&& ~~~mask) ||| (BitVec.ofNat 32 value <<< (byteOffset * 8))

/-- `writeConfigByte`, a read, a change and a write of the dword. -/
def writeConfigByte (config : ConfigSpace) (bus device function offset value : Nat) :
    ConfigSpace :=
  let alignedOffset := offset &&& 0xFC
  let current := readConfigDword config bus device function alignedOffset
  writeConfigDword config bus device function alignedOffset
    (setByte current (offset &&& 0x03) value)

/-- `readConfigWord`, the upper or the lower half of a dword. -/
def readConfigWord (config : ConfigSpace) (bus device function offset : Nat) : Nat :=
  let dword := readConfigDword config bus device function (offset &&& 0xFC)
  let wordOffset := if offset &&& 0x02 ≠ 0 then 2 else 0
  ((dword >>> (wordOffset * 8)) &&& 0xFFFF).toNat

/-- `readConfigByte`, one byte of a dword. -/
def readConfigByte (config : ConfigSpace) (bus device function offset : Nat) : Nat :=
  byteOf (readConfigDword config bus device function (offset &&& 0xFC)) (offset &&& 0x03)

/-! ## Bytes of a dword -/

theorem getLsbD_byteMask (bit : Nat) : (0xFF#32).getLsbD bit = decide (bit < 8) := by
  change (BitVec.ofNat 32 (2 ^ 8 - 1)).getLsbD bit = _
  rw [BitVec.getLsbD_ofNat, Nat.testBit_two_pow_sub_one]
  by_cases low : bit < 8
  · simp [low, Nat.lt_of_lt_of_le low]
  · simp [low]

theorem testBit_byte {value bit : Nat} (byte : value < 256) (high : 8 ≤ bit) :
    value.testBit bit = false := by
  apply Nat.testBit_lt_two_pow
  exact Nat.lt_of_lt_of_le byte (Nat.pow_le_pow_right (n := 2) (by decide) high)

/-- The bits of the replaced byte are those of the value. -/
theorem getLsbD_setByte (dword : BitVec 32) {byteOffset value bit : Nat} (byte : value < 256)
    (bound : bit < 32) : (setByte dword byteOffset value).getLsbD bit =
      if byteOffset * 8 ≤ bit ∧ bit < byteOffset * 8 + 8 then value.testBit (bit - byteOffset * 8)
      else dword.getLsbD bit := by
  simp only [setByte, BitVec.getLsbD_or, BitVec.getLsbD_and, BitVec.getLsbD_not,
    BitVec.getLsbD_shiftLeft, getLsbD_byteMask]
  rw [BitVec.getLsbD_ofNat]
  by_cases below : bit < byteOffset * 8
  · simp [bound, below, Nat.not_le.mpr below]
  · by_cases above : bit < byteOffset * 8 + 8
    · have inside : bit - byteOffset * 8 < 8 := by omega
      have width : bit - byteOffset * 8 < 32 := by omega
      simp [bound, below, Nat.not_lt.mp below, above, inside, width]
    · have outside : ¬ bit - byteOffset * 8 < 8 := by omega
      simp [bound, below, above, outside, testBit_byte byte (Nat.not_lt.mp outside)]

theorem byteOf_setByte_self (dword : BitVec 32) {byteOffset value : Nat} (inside : byteOffset < 4)
    (byte : value < 256) : byteOf (setByte dword byteOffset value) byteOffset = value := by
  have bits : (setByte dword byteOffset value >>> (byteOffset * 8)) &&& 0xFF#32 =
      BitVec.ofNat 32 value := by
    apply BitVec.eq_of_getLsbD_eq
    intro bit bound
    rw [BitVec.getLsbD_and, BitVec.getLsbD_ushiftRight, getLsbD_byteMask, BitVec.getLsbD_ofNat]
    by_cases low : bit < 8
    · rw [getLsbD_setByte dword byte (by omega), if_pos (by omega)]
      simp [low, bound]
    · simp [low, testBit_byte byte (Nat.not_lt.mp low)]
  change ((setByte dword byteOffset value >>> (byteOffset * 8)) &&& 0xFF#32).toNat = value
  rw [bits, BitVec.toNat_ofNat, Nat.mod_eq_of_lt (by omega)]

theorem byteOf_setByte_of_ne (dword : BitVec 32) {byteOffset other value : Nat}
    (inside : other < 4) (different : other ≠ byteOffset) (byte : value < 256) :
    byteOf (setByte dword byteOffset value) other = byteOf dword other := by
  have bits : (setByte dword byteOffset value >>> (other * 8)) &&& 0xFF#32 =
      (dword >>> (other * 8)) &&& 0xFF#32 := by
    apply BitVec.eq_of_getLsbD_eq
    intro bit bound
    rw [BitVec.getLsbD_and, BitVec.getLsbD_and, BitVec.getLsbD_ushiftRight,
      BitVec.getLsbD_ushiftRight, getLsbD_byteMask]
    by_cases low : bit < 8
    · rw [getLsbD_setByte dword byte (by omega), if_neg (by omega)]
    · simp [low]
  exact congrArg BitVec.toNat bits

/-! ## Addresses -/

theorem mul_or_eq_add {high low width : Nat} (fits : low < 2 ^ width) :
    high * 2 ^ width ||| low = high * 2 ^ width + low := by
  rw [← Nat.shiftLeft_eq, Nat.shiftLeft_add_eq_or_of_lt fits]

/-- The parts of an address do not overlap. -/
theorem makeConfigAddress_eq {bus device function offset : Nat} (validDevice : device < 32)
    (validFunction : function < 8) (validOffset : offset < 256) :
    makeConfigAddress bus device function offset =
      ((bus * 32 + device) * 8 + function) * 256 + (offset &&& 0xFC) := by
  have aligned : offset &&& 0xFC < 256 := Nat.lt_of_le_of_lt Nat.and_le_left validOffset
  have first : bus <<< 16 ||| device <<< 11 = (bus * 32 + device) * 2 ^ 11 := by
    rw [Nat.shiftLeft_eq, Nat.shiftLeft_eq, mul_or_eq_add (by omega)]
    omega
  have second : (bus * 32 + device) * 2 ^ 11 ||| function <<< 8 =
      ((bus * 32 + device) * 8 + function) * 2 ^ 8 := by
    rw [Nat.shiftLeft_eq, mul_or_eq_add (by omega)]
    omega
  rw [makeConfigAddress, first, second, mul_or_eq_add aligned]
  omega

/-- Distinct dwords have distinct addresses. -/
theorem makeConfigAddress_injective {bus device function offset : Nat}
    {bus' device' function' offset' : Nat}
    (validDevice : device < 32) (validFunction : function < 8) (validOffset : offset < 256)
    (validDevice' : device' < 32) (validFunction' : function' < 8) (validOffset' : offset' < 256)
    (same : makeConfigAddress bus device function offset =
      makeConfigAddress bus' device' function' offset') :
    bus = bus' ∧ device = device' ∧ function = function' ∧
      offset &&& 0xFC = offset' &&& 0xFC := by
  have aligned : offset &&& 0xFC < 256 := Nat.lt_of_le_of_lt Nat.and_le_left validOffset
  have aligned' : offset' &&& 0xFC < 256 := Nat.lt_of_le_of_lt Nat.and_le_left validOffset'
  rw [makeConfigAddress_eq validDevice validFunction validOffset,
    makeConfigAddress_eq validDevice' validFunction' validOffset'] at same
  omega

/-- The bytes of a dword have its address. -/
theorem makeConfigAddress_congr (bus device function : Nat) {offset offset' : Nat}
    (aligned : offset &&& 0xFC = offset' &&& 0xFC) :
    makeConfigAddress bus device function offset =
      makeConfigAddress bus device function offset' := by
  rw [makeConfigAddress, makeConfigAddress, aligned]

@[simp]
theorem makeConfigAddress_aligned (bus device function offset : Nat) :
    makeConfigAddress bus device function (offset &&& 0xFC) =
      makeConfigAddress bus device function offset :=
  makeConfigAddress_congr bus device function (by rw [Nat.and_assoc, Nat.and_self])

/-! ## Reads after writes -/

/-- A byte write alters one dword only. -/
theorem writeConfigByte_of_ne {bus device function offset address : Nat}
    (different : address ≠ makeConfigAddress bus device function offset) (config : ConfigSpace)
    (value : Nat) : (writeConfigByte config bus device function offset value).find address =
      config.find address := by
  rw [writeConfigByte, writeConfigDword, makeConfigAddress_aligned]
  exact Function.update_of_ne different _ _

/-- A read depends on its dword only. -/
theorem readConfigDword_congr {config config' : ConfigSpace} {bus device function offset : Nat}
    (same : config.find (makeConfigAddress bus device function offset) =
      config'.find (makeConfigAddress bus device function offset)) :
    readConfigDword config bus device function offset =
      readConfigDword config' bus device function offset := by
  rw [readConfigDword, same, readConfigDword]

theorem readConfigByte_congr {config config' : ConfigSpace} {bus device function offset : Nat}
    (same : config.find (makeConfigAddress bus device function offset) =
      config'.find (makeConfigAddress bus device function offset)) :
    readConfigByte config bus device function offset =
      readConfigByte config' bus device function offset := by
  rw [readConfigByte, readConfigByte, readConfigDword_congr]
  rwa [makeConfigAddress_aligned]

theorem readConfigWord_congr {config config' : ConfigSpace} {bus device function offset : Nat}
    (same : config.find (makeConfigAddress bus device function offset) =
      config'.find (makeConfigAddress bus device function offset)) :
    readConfigWord config bus device function offset =
      readConfigWord config' bus device function offset := by
  rw [readConfigWord, readConfigWord, readConfigDword_congr]
  rwa [makeConfigAddress_aligned]

/-- The dword after a byte write. -/
theorem readConfigDword_writeConfigByte (config : ConfigSpace) (bus device function : Nat)
    {offset offset' : Nat} (aligned : offset' &&& 0xFC = offset &&& 0xFC) (value : Nat) :
    readConfigDword (writeConfigByte config bus device function offset value) bus device function
        (offset' &&& 0xFC) =
      setByte (readConfigDword config bus device function (offset &&& 0xFC)) (offset &&& 0x03)
        value := by
  rw [readConfigDword, writeConfigByte, writeConfigDword, aligned]
  dsimp only
  rw [Function.update_self]

theorem readConfigByte_writeConfigByte_self (config : ConfigSpace)
    (bus device function offset : Nat) {value : Nat} (byte : value < 256) :
    readConfigByte (writeConfigByte config bus device function offset value) bus device function
      offset = value := by
  rw [readConfigByte, readConfigDword_writeConfigByte config bus device function rfl]
  exact byteOf_setByte_self _ (Nat.lt_of_le_of_lt Nat.and_le_right (by decide)) byte

/-- The other bytes of the dword. -/
theorem readConfigByte_writeConfigByte_of_byte_ne (config : ConfigSpace)
    (bus device function : Nat) {offset offset' value : Nat}
    (aligned : offset' &&& 0xFC = offset &&& 0xFC) (different : offset' &&& 0x03 ≠ offset &&& 0x03)
    (byte : value < 256) :
    readConfigByte (writeConfigByte config bus device function offset value) bus device function
      offset' = readConfigByte config bus device function offset' := by
  rw [readConfigByte, readConfigDword_writeConfigByte config bus device function aligned,
    byteOf_setByte_of_ne _ (Nat.lt_of_le_of_lt Nat.and_le_right (by decide)) different byte,
    readConfigByte, aligned]

/-- An offset is its dword and its byte. -/
theorem offset_eq_of_parts {offset offset' : Nat} (validOffset : offset < 256)
    (validOffset' : offset' < 256) (aligned : offset' &&& 0xFC = offset &&& 0xFC)
    (byte : offset' &&& 0x03 = offset &&& 0x03) : offset' = offset := by
  have whole : ∀ x, x < 256 → (x &&& 0xFC) ||| (x &&& 0x03) = x := by
    intro x bound
    rw [← Nat.and_or_distrib_left]
    exact (Nat.and_two_pow_sub_one_eq_mod x 8).trans (Nat.mod_eq_of_lt bound)
  rw [← whole offset' validOffset', aligned, byte, whole offset validOffset]

/-- A byte that is written is read back, and every other byte is read as
before, also where the dword was absent. -/
theorem readConfigByte_writeConfigByte (config : ConfigSpace)
    {bus device function offset value : Nat} (validDevice : device < 32)
    (validFunction : function < 8) (validOffset : offset < 256) (byte : value < 256) :
    readConfigByte (writeConfigByte config bus device function offset value) bus device function
        offset = value ∧
      ∀ bus' device' function' offset', device' < 32 → function' < 8 → offset' < 256 →
        (bus', device', function', offset') ≠ (bus, device, function, offset) →
          readConfigByte (writeConfigByte config bus device function offset value) bus' device'
              function' offset' =
            readConfigByte config bus' device' function' offset' := by
  refine ⟨readConfigByte_writeConfigByte_self config bus device function offset byte, ?_⟩
  intro bus' device' function' offset' validDevice' validFunction' validOffset' different
  by_cases same : makeConfigAddress bus' device' function' offset' =
      makeConfigAddress bus device function offset
  · obtain ⟨rfl, rfl, rfl, aligned⟩ := makeConfigAddress_injective validDevice' validFunction'
      validOffset' validDevice validFunction validOffset same
    apply readConfigByte_writeConfigByte_of_byte_ne config _ _ _ aligned _ byte
    intro sameByte
    apply different
    rw [offset_eq_of_parts validOffset validOffset' aligned sameByte]
  · exact readConfigByte_congr (writeConfigByte_of_ne same config value)

/-- The neighbours of a byte that is written into an absent dword. -/
theorem readConfigByte_writeConfigByte_absent :
    readConfigByte (writeConfigByte ⟨fun _ => none⟩ 1 2 3 0x19 0x42) 1 2 3 0x19 = 0x42 ∧
      readConfigByte (writeConfigByte ⟨fun _ => none⟩ 1 2 3 0x19 0x42) 1 2 3 0x1A = 0xFF :=
  ⟨(readConfigByte_writeConfigByte ⟨fun _ => none⟩ (by decide) (by decide) (by decide)
      (by decide)).1,
    (readConfigByte_writeConfigByte ⟨fun _ => none⟩ (by decide) (by decide) (by decide)
      (by decide)).2 1 2 3 0x1A (by decide) (by decide) (by decide) (by decide)⟩

end SystemcTlm.Pci
