import Mathlib.Data.List.TakeWhile
import Mathlib.Tactic.Ring
import SkyCurrent.Base.Utf16

/- setGlobalProjectDir of src/skycurrent-deno/mod.ts: a JavaScript string, which is a list of code
   units of UTF-16, becomes a NUL-terminated array of UTF-8, and a path again behind
   sc_set_global_project_dir of src/skycurrent-capi. -/
namespace Deno.ProjectDir

def fourBytes (charcode : Nat) : List Nat :=
  [0xf0 ||| (charcode >>> 18), 0x80 ||| ((charcode >>> 12) &&& 0x3f),
    0x80 ||| ((charcode >>> 6) &&& 0x3f), 0x80 ||| (charcode &&& 0x3f)]

/-- The loop of toNullTerminatedUTF8Array, from a code unit on. Any surrogate takes the next
    unit with it, and past the end charCodeAt is NaN, of which no bit is set. -/
def utf8Loop : List UInt16 → List Nat
  | [] => []
  | unit :: rest =>
    let charcode := unit.toNat
    if charcode < 0x80 then charcode :: utf8Loop rest
    else if charcode < 0x800 then
      [0xc0 ||| (charcode >>> 6), 0x80 ||| (charcode &&& 0x3f)] ++ utf8Loop rest
    else if charcode < 0xd800 ∨ 0xe000 ≤ charcode then
      [0xe0 ||| (charcode >>> 12), 0x80 ||| ((charcode >>> 6) &&& 0x3f),
        0x80 ||| (charcode &&& 0x3f)] ++ utf8Loop rest
    else
      match rest with
      | [] => fourBytes (0x10000 + (((charcode &&& 0x3ff) <<< 10) ||| 0))
      | low :: rest =>
        fourBytes (0x10000 + (((charcode &&& 0x3ff) <<< 10) ||| (low.toNat &&& 0x3ff))) ++
          utf8Loop rest

def toNullTerminatedUTF8Array (str : List UInt16) : List Nat := utf8Loop str ++ [0x00]

def uint8Array (numbers : List Nat) : List UInt8 := numbers.map UInt8.ofNat

/-- CStr::from_ptr: the bytes before the first NUL. Without one it reads past the buffer. -/
def cStr (bytes : List UInt8) : Option (List UInt8) :=
  if 0 ∈ bytes then some (bytes.takeWhile (· ≠ 0)) else none

def scSetGlobalProjectDir (globalProjectDir : Option String) (projectDir : List UInt8) :
    Option (Nat × Option String) := do
  let cStr ← cStr projectDir
  match String.fromUTF8? cStr.toByteArray with
  | some pathStr => some (0, some pathStr)
  | none => some (1, globalProjectDir)

def setGlobalProjectDir (globalProjectDir : Option String) (projectDir : List UInt16) :
    Option (Except String Unit × Option String) := do
  let utf8 := uint8Array (toNullTerminatedUTF8Array projectDir)
  let (result, globalProjectDir) ← scSetGlobalProjectDir globalProjectDir utf8
  if result = 1 then
    some (.error "provided project directory is not a valid UTF-8 string!", globalProjectDir)
  else some (.ok (), globalProjectDir)

def characters : List UInt16 → List Char
  | [] => []
  | unit :: rest =>
    if Utf16.isHigh unit || Utf16.isLow unit then
      match rest with
      | [] => [Char.ofNat (Utf16.pair unit 0)]
      | low :: rest => Char.ofNat (Utf16.pair unit low) :: characters rest
    else Char.ofNat unit.toNat :: characters rest

section Bytes

theorem or_of_lt {i b : Nat} (small : b < 2 ^ i) (a : Nat) : 2 ^ i * a ||| b = b + 2 ^ i * a := by
  rw [← Nat.two_pow_add_eq_or_of_lt small, Nat.add_comm]

theorem tail_byte (n : Nat) : 0x80 ||| (n &&& 0x3f) = n % 0x40 + 0x80 := by
  have bits : n &&& 0x3f = n % 0x40 := Nat.and_two_pow_sub_one_eq_mod n 6
  rw [bits]
  exact or_of_lt (i := 6) (Nat.mod_lt _ (by decide)) 2

theorem head_byte {n k i a : Nat} (small : n >>> k < 2 ^ i) :
    2 ^ i * a ||| (n >>> k) = n / 2 ^ k % 2 ^ i + 2 ^ i * a := by
  rw [or_of_lt small, Nat.shiftRight_eq_div_pow] at *
  rw [Nat.mod_eq_of_lt small]

theorem utf8_of_toNat {c : Char} {n : Nat} (is : c.toNat = n) : String.utf8EncodeChar c =
    if n ≤ 0x7f then [UInt8.ofNat n]
    else if n ≤ 0x7ff then [UInt8.ofNat (n / 64 % 0x20 + 0xc0), UInt8.ofNat (n % 0x40 + 0x80)]
    else if n ≤ 0xffff then
      [UInt8.ofNat (n / 4096 % 0x10 + 0xe0), UInt8.ofNat (n / 64 % 0x40 + 0x80),
        UInt8.ofNat (n % 0x40 + 0x80)]
    else
      [UInt8.ofNat (n / 262144 % 0x08 + 0xf0), UInt8.ofNat (n / 4096 % 0x40 + 0x80),
        UInt8.ofNat (n / 64 % 0x40 + 0x80), UInt8.ofNat (n % 0x40 + 0x80)] := by
  subst is
  rfl

theorem one_byte {n : Nat} (range : n < 0x80) :
    uint8Array [n] = String.utf8EncodeChar (Char.ofNat n) := by
  rw [utf8_of_toNat (Utf16.toNat_ofNat (n := n) (by omega)), if_pos (by omega)]
  rfl

theorem two_bytes {n : Nat} (above : 0x80 ≤ n) (range : n < 0x800) :
    uint8Array [0xc0 ||| (n >>> 6), 0x80 ||| (n &&& 0x3f)] =
      String.utf8EncodeChar (Char.ofNat n) := by
  have shifted := Nat.shiftRight_eq_div_pow n 6
  have first := head_byte (n := n) (k := 6) (i := 5) (a := 6) (by omega)
  rw [utf8_of_toNat (Utf16.toNat_ofNat (n := n) (by omega)), if_neg (by omega),
    if_pos (by omega), tail_byte]
  exact congrArg (fun b => [UInt8.ofNat b, UInt8.ofNat (n % 0x40 + 0x80)]) first

theorem three_bytes {n : Nat} (above : 0x800 ≤ n) (range : n < 0x10000)
    (scalar : n < 0xd800 ∨ 0xe000 ≤ n) :
    uint8Array [0xe0 ||| (n >>> 12), 0x80 ||| ((n >>> 6) &&& 0x3f), 0x80 ||| (n &&& 0x3f)] =
      String.utf8EncodeChar (Char.ofNat n) := by
  have shifted := Nat.shiftRight_eq_div_pow n 12
  have first := head_byte (n := n) (k := 12) (i := 4) (a := 14) (by omega)
  rw [utf8_of_toNat (Utf16.toNat_ofNat (n := n) (by omega)), if_neg (by omega),
    if_neg (by omega), if_pos (by omega), tail_byte, tail_byte, Nat.shiftRight_eq_div_pow n 6]
  exact congrArg (fun b => [UInt8.ofNat b, UInt8.ofNat (n / 64 % 0x40 + 0x80),
    UInt8.ofNat (n % 0x40 + 0x80)]) first

theorem four_bytes {n : Nat} (above : 0x10000 ≤ n) (range : n < 0x110000) :
    uint8Array (fourBytes n) = String.utf8EncodeChar (Char.ofNat n) := by
  have shifted := Nat.shiftRight_eq_div_pow n 18
  have first := head_byte (n := n) (k := 18) (i := 3) (a := 30) (by omega)
  rw [utf8_of_toNat (Utf16.toNat_ofNat (n := n) (by omega)), if_neg (by omega),
    if_neg (by omega), if_neg (by omega), fourBytes, tail_byte, tail_byte, tail_byte,
    Nat.shiftRight_eq_div_pow n 6, Nat.shiftRight_eq_div_pow n 12]
  exact congrArg (fun b => [UInt8.ofNat b, UInt8.ofNat (n / 4096 % 0x40 + 0x80),
    UInt8.ofNat (n / 64 % 0x40 + 0x80), UInt8.ofNat (n % 0x40 + 0x80)]) first

theorem charcode_pair (unit low : Nat) : ((unit &&& 0x3ff) <<< 10) ||| (low &&& 0x3ff) =
    unit % 0x400 * 0x400 + low % 0x400 := by
  have bits (n : Nat) : n &&& 0x3ff = n % 0x400 := Nat.and_two_pow_sub_one_eq_mod n 10
  rw [bits, bits, ← Nat.shiftLeft_add_eq_or_of_lt (i := 10) (Nat.mod_lt _ (by decide)),
    Nat.shiftLeft_eq]

theorem pair_range (unit low : UInt16) :
    0x10000 ≤ Utf16.pair unit low ∧ Utf16.pair unit low < 0x110000 := by
  unfold Utf16.pair
  omega

end Bytes

section Loop

theorem uint8Array_append (xs ys : List Nat) :
    uint8Array (xs ++ ys) = uint8Array xs ++ uint8Array ys := List.map_append

theorem surrogate_iff (unit : UInt16) : (Utf16.isHigh unit || Utf16.isLow unit) = true ↔
    0xd800 ≤ unit.toNat ∧ unit.toNat < 0xe000 := by
  simp only [Utf16.isHigh, Utf16.isLow, Bool.or_eq_true, Bool.and_eq_true, decide_eq_true_eq]
  omega

theorem characters_scalar {unit : UInt16}
    (scalar : (Utf16.isHigh unit || Utf16.isLow unit) = false) (rest : List UInt16) :
    characters (unit :: rest) = Char.ofNat unit.toNat :: characters rest := by
  rw [characters.eq_def]
  simp only [scalar, Bool.false_eq_true, if_false]

theorem characters_surrogate {unit : UInt16}
    (surrogate : (Utf16.isHigh unit || Utf16.isLow unit) = true) (low : UInt16)
    (rest : List UInt16) : characters (unit :: low :: rest) =
      Char.ofNat (Utf16.pair unit low) :: characters rest := by
  rw [characters.eq_def]
  simp only [surrogate, if_true]

theorem surrogates_bytes (unit : UInt16) (low : UInt16) :
    uint8Array (fourBytes (0x10000 + (((unit.toNat &&& 0x3ff) <<< 10) ||| (low.toNat &&& 0x3ff)))) =
      String.utf8EncodeChar (Char.ofNat (Utf16.pair unit low)) := by
  obtain ⟨above, range⟩ := pair_range unit low
  have value : 0x10000 + (((unit.toNat &&& 0x3ff) <<< 10) ||| (low.toNat &&& 0x3ff)) =
      Utf16.pair unit low := by
    rw [charcode_pair, Utf16.pair, Nat.add_assoc]
  rw [value, four_bytes above range]

theorem utf8Loop_scalar {unit : UInt16} (rest : List UInt16)
    (scalar : unit.toNat < 0xd800 ∨ 0xe000 ≤ unit.toNat) :
    uint8Array (utf8Loop (unit :: rest)) =
      String.utf8EncodeChar (Char.ofNat unit.toNat) ++ uint8Array (utf8Loop rest) := by
  have small : unit.toNat < 0x10000 := unit.toNat_lt
  rw [utf8Loop.eq_def]
  simp only
  split
  · rename_i one
    rw [← one_byte one]
    rfl
  · rename_i above
    split
    · rename_i two
      rw [uint8Array_append, two_bytes (by omega) two]
    · rename_i above'
      rw [uint8Array_append, three_bytes (by omega) small scalar]

theorem utf8Loop_surrogate {unit : UInt16} (is : 0xd800 ≤ unit.toNat ∧ unit.toNat < 0xe000) :
    uint8Array (utf8Loop [unit]) = String.utf8EncodeChar (Char.ofNat (Utf16.pair unit 0)) ∧
    ∀ low rest, uint8Array (utf8Loop (unit :: low :: rest)) =
      String.utf8EncodeChar (Char.ofNat (Utf16.pair unit low)) ++ uint8Array (utf8Loop rest) := by
  constructor
  · rw [utf8Loop.eq_def]
    simp only
    rw [if_neg (by omega), if_neg (by omega), if_neg (by omega)]
    exact surrogates_bytes unit 0
  · intro low rest
    rw [utf8Loop.eq_def]
    simp only
    rw [if_neg (by omega), if_neg (by omega), if_neg (by omega), uint8Array_append,
      surrogates_bytes unit low]

theorem utf8Loop_characters (str : List UInt16) :
    uint8Array (utf8Loop str) = (characters str).flatMap String.utf8EncodeChar := by
  induction str using characters.induct with
  | case1 => rfl
  | case2 unit surrogate =>
    rw [(utf8Loop_surrogate ((surrogate_iff unit).mp surrogate)).1, characters.eq_def]
    simp [surrogate]
  | case3 unit surrogate low rest ih =>
    rw [(utf8Loop_surrogate ((surrogate_iff unit).mp surrogate)).2, ih,
      characters_surrogate surrogate, List.flatMap_cons]
  | case4 unit rest scalar ih =>
    have scalar' : ¬ (0xd800 ≤ unit.toNat ∧ unit.toNat < 0xe000) := by
      rw [← surrogate_iff]
      exact scalar
    rw [utf8Loop_scalar rest (by omega), ih, characters_scalar (by simpa using scalar),
      List.flatMap_cons]

end Loop

section Directory

theorem utf8_zero : String.utf8EncodeChar (Char.ofNat 0) = [0] := rfl

theorem utf8_nonzero {c : Char} (other : c ≠ Char.ofNat 0) :
    ∀ b ∈ String.utf8EncodeChar c, b ≠ 0 := by
  have positive : c.toNat ≠ 0 := by
    intro zero
    exact other (Char.toNat_inj.mp zero)
  have nonzero {n : Nat} (low : 0 < n) (high : n < 256) : UInt8.ofNat n ≠ 0 := by
    intro zero
    have same := congrArg UInt8.toNat zero
    rw [UInt8.toNat_ofNat', Nat.mod_eq_of_lt high] at same
    simp at same
    omega
  rw [utf8_of_toNat (c := c) rfl]
  intro b member
  split at member
  · rw [List.mem_singleton] at member
    subst member
    exact nonzero (by omega) (by omega)
  · split at member
    · simp only [List.mem_cons, List.not_mem_nil, or_false] at member
      rcases member with rfl | rfl <;> exact nonzero (by omega) (by omega)
    · split at member
      · simp only [List.mem_cons, List.not_mem_nil, or_false] at member
        rcases member with rfl | rfl | rfl <;> exact nonzero (by omega) (by omega)
      · simp only [List.mem_cons, List.not_mem_nil, or_false] at member
        rcases member with rfl | rfl | rfl | rfl <;> exact nonzero (by omega) (by omega)

theorem takeWhile_utf8 (chars : List Char) :
    (chars.flatMap String.utf8EncodeChar ++ [0]).takeWhile (· ≠ 0) =
      (chars.takeWhile (· ≠ Char.ofNat 0)).flatMap String.utf8EncodeChar := by
  refine Utf16.takeWhile_flatMap _ _ _ ?_ ?_ (List.takeWhile_cons_of_neg (by simp)) chars
  · intro c rest nul
    obtain rfl : c = Char.ofNat 0 := by simpa using nul
    rw [utf8_zero]
    exact List.takeWhile_cons_of_neg (by simp)
  · intro c other b member
    simpa using utf8_nonzero (by simpa using other) b member

theorem fromUTF8_utf8 (chars : List Char) :
    String.fromUTF8? (chars.flatMap String.utf8EncodeChar).toByteArray =
      some (String.ofList chars) := by
  have bytes : (chars.flatMap String.utf8EncodeChar).toByteArray = chars.utf8Encode := rfl
  have valid : chars.utf8Encode.IsValidUTF8 := ByteArray.isValidUTF8_utf8Encode
  have same : String.fromUTF8 chars.utf8Encode valid = String.ofList chars := by
    rw [← String.toByteArray_inj, String.toByteArray_ofList]
    rfl
  rw [bytes, String.fromUTF8?, dif_pos valid, same]

theorem setGlobalProjectDir_characters (globalProjectDir : Option String) (str : List UInt16) :
    setGlobalProjectDir globalProjectDir str = some (.ok (),
      some (String.ofList ((characters str).takeWhile (· ≠ Char.ofNat 0)))) := by
  have bytes : uint8Array (toNullTerminatedUTF8Array str) =
      (characters str).flatMap String.utf8EncodeChar ++ [0] := by
    rw [toNullTerminatedUTF8Array, uint8Array_append, utf8Loop_characters]
    rfl
  have ended : 0 ∈ uint8Array (toNullTerminatedUTF8Array str) := by
    rw [bytes]
    simp
  have text : cStr (uint8Array (toNullTerminatedUTF8Array str)) = some
      (((characters str).takeWhile (· ≠ Char.ofNat 0)).flatMap String.utf8EncodeChar) := by
    rw [cStr, if_pos ended, bytes, takeWhile_utf8]
  have valid := fromUTF8_utf8 ((characters str).takeWhile (· ≠ Char.ofNat 0))
  simp only [setGlobalProjectDir, scSetGlobalProjectDir, text, Option.bind_eq_bind,
    Option.bind_some, valid]
  rfl

theorem characters_encode (chars : List Char) : characters (Utf16.encode chars) = chars := by
  induction chars with
  | nil => rfl
  | cons c chars ih =>
    have encodes := Utf16.encodeChar_encodes c
    rw [Utf16.encode_cons]
    generalize Utf16.encodeChar c = units at encodes
    cases encodes with
    | unit unit same high low =>
      rw [List.singleton_append, characters_scalar (by simp [high, low]), same, ih,
        Char.ofNat_toNat]
    | pair high low first second same =>
      rw [List.cons_append, List.singleton_append, characters_surrogate (by simp [first]), same,
        ih, Char.ofNat_toNat]

/-- setGlobalProjectDir never throws. What it sets has the same code units as the string exactly
    when the string is well-formed UTF-16 without a NUL, and of any well-formed string it sets
    what stands before the first NUL. -/
theorem project_dir_set (globalProjectDir : Option String) (str : List UInt16) :
    ∃ text : String, setGlobalProjectDir globalProjectDir str = some (.ok (), some text) ∧
      (Utf16.encode text.toList = str ↔ Utf16.wellFormed str = true ∧ 0 ∉ str) ∧
      (Utf16.wellFormed str = true → Utf16.encode text.toList = str.takeWhile (· ≠ 0)) := by
  refine ⟨_, setGlobalProjectDir_characters globalProjectDir str, ?_⟩
  rw [String.toList_ofList]
  have before : Utf16.wellFormed str = true → Utf16.encode
      ((characters str).takeWhile (· ≠ Char.ofNat 0)) = str.takeWhile (· ≠ 0) := by
    intro valid
    obtain ⟨chars, rfl⟩ := Utf16.exists_encode valid
    rw [characters_encode, Utf16.takeWhile_encode]
  refine ⟨⟨?_, ?_⟩, before⟩
  · intro same
    have valid : Utf16.wellFormed str = true := by
      rw [← same]
      exact Utf16.wellFormed_encode _
    refine ⟨valid, ?_⟩
    rw [before valid, List.takeWhile_eq_self_iff] at same
    intro nul
    simpa using same 0 nul
  · rintro ⟨valid, nul⟩
    rw [before valid, List.takeWhile_eq_self_iff]
    intro unit member
    have nonzero : unit ≠ 0 := by
      rintro rfl
      exact nul member
    simpa using nonzero

end Directory

end Deno.ProjectDir
