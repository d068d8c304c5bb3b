import Mathlib.Data.List.Basic
import Mathlib.Tactic.Ring

/- Buffers that are read and written by half-open ranges, their division into chunks, and
   unsigned integers as little-endian bytes. A range that does not fit is a failure. -/
namespace ByteBuffer

variable {α : Type}

def slice (l : List α) (a b : Nat) : Option (List α) :=
  if a ≤ b ∧ b ≤ l.length then some ((l.take b).drop a) else none

def copyFromSlice (l : List α) (a b : Nat) (src : List α) : Option (List α) :=
  if a ≤ b ∧ b ≤ l.length ∧ src.length = b - a then some (l.take a ++ src ++ l.drop b) else none

theorem slice_between (front mid back : List α) {a b : Nat} (start : a = front.length)
    (stop : b = front.length + mid.length) : slice (front ++ mid ++ back) a b = some mid := by
  subst start stop
  have fits : front.length ≤ front.length + mid.length ∧
      front.length + mid.length ≤ (front ++ mid ++ back).length := by
    simp
  rw [slice, if_pos fits]
  simp [List.take_append]

theorem copy_behind (front src back : List α) {a b : Nat} (start : a = front.length)
    (stop : b = front.length + src.length) (room : src.length ≤ back.length) :
    copyFromSlice (front ++ back) a b src = some (front ++ src ++ back.drop src.length) := by
  subst start stop
  have fits : front.length ≤ front.length + src.length ∧
      front.length + src.length ≤ (front ++ back).length ∧
      src.length = front.length + src.length - front.length := by
    simp only [List.length_append]
    omega
  rw [copyFromSlice, if_pos fits]
  simp [List.drop_append]

theorem copy_length {l l' src : List α} {a b : Nat} (done : copyFromSlice l a b src = some l') :
    l'.length = l.length := by
  unfold copyFromSlice at done
  split at done
  · rename_i fits
    obtain rfl := Option.some.inj done
    simp only [List.length_append, List.length_take, List.length_drop]
    omega
  · cases done

theorem copy_get (l src : List α) {a b : Nat} (order : a ≤ b) (room : b ≤ l.length)
    (size : src.length = b - a) :
    ∃ l', copyFromSlice l a b src = some l' ∧ l'.length = l.length ∧
      ∀ k, l'[k]? = if a ≤ k ∧ k < b then src[k - a]? else l[k]? := by
  have done : copyFromSlice l a b src = some (l.take a ++ src ++ l.drop b) :=
    if_pos ⟨order, room, size⟩
  refine ⟨_, done, copy_length done, ?_⟩
  intro k
  rw [List.append_assoc, List.getElem?_append, List.getElem?_append, List.length_take]
  have front : min a l.length = a := by omega
  rw [front]
  split
  · rename_i before
    rw [if_neg (by omega), List.getElem?_take_of_lt before]
  · split
    · rw [if_pos (by omega)]
    · rw [if_neg (by omega), List.getElem?_drop, size]
      congr 1
      omega

def chunks (n : Nat) (l : List α) : List (List α) :=
  (List.range ((l.length + n - 1) / n)).map fun i => (l.drop (i * n)).take n

theorem chunks_length (n : Nat) (l : List α) :
    (chunks n l).length = (l.length + n - 1) / n := by
  simp [chunks]

theorem chunk_count {n len : Nat} (positive : 0 < n) (some_ : 0 < len) :
    0 < (len + n - 1) / n ∧
      ((len + n - 1) / n - 1) * n + (if len % n = 0 then n else len % n) = len := by
  have whole := Nat.div_add_mod len n
  have small := Nat.mod_lt len positive
  generalize len / n = d at whole
  generalize len % n = r at whole small
  by_cases full : r = 0
  · subst full
    obtain ⟨e, rfl⟩ : ∃ e, d = e + 1 := by
      cases d with
      | zero => omega
      | succ e => exact ⟨e, rfl⟩
    have count : (len + n - 1) / n = e + 1 := by
      rw [← whole, Nat.add_zero, Nat.add_sub_assoc positive, Nat.mul_add_div positive,
        Nat.div_eq_of_lt (by omega), Nat.add_zero]
    rw [count, if_pos rfl, Nat.add_sub_cancel]
    refine ⟨Nat.succ_pos e, ?_⟩
    rw [← whole, Nat.mul_comm e n, Nat.mul_succ, Nat.add_zero]
  · have count : (len + n - 1) / n = d + 1 := by
      have shift : len + n - 1 = n * (d + 1) + (r - 1) := by
        rw [← whole, Nat.mul_succ]
        omega
      rw [shift, Nat.mul_add_div positive, Nat.div_eq_of_lt (by omega), Nat.add_zero]
    rw [count, if_neg full, Nat.add_sub_cancel, Nat.mul_comm d n]
    exact ⟨Nat.succ_pos d, whole⟩

theorem chunk_size {n : Nat} (positive : 0 < n) {l : List α} {i : Nat}
    (range : i < (l.length + n - 1) / n) :
    ((l.drop (i * n)).take n).length =
      if (l.length + n - 1) / n = i + 1 then (if l.length % n = 0 then n else l.length % n)
      else n := by
  have some_ : 0 < l.length := by
    by_contra empty
    rw [Nat.eq_zero_of_not_pos empty, Nat.zero_add, Nat.div_eq_of_lt (by omega)] at range
    omega
  obtain ⟨_, whole⟩ := chunk_count positive some_
  have last : (if l.length % n = 0 then n else l.length % n) ≤ n ∧
      0 < (if l.length % n = 0 then n else l.length % n) := by
    have small := Nat.mod_lt l.length positive
    split <;> omega
  generalize (if l.length % n = 0 then n else l.length % n) = size at whole last
  generalize (l.length + n - 1) / n = count at range whole
  rw [List.length_take, List.length_drop]
  by_cases final : count = i + 1
  · rw [if_pos final]
    subst final
    rw [Nat.add_sub_cancel] at whole
    omega
  · rw [if_neg final]
    have before : (i + 1) * n ≤ (count - 1) * n := Nat.mul_le_mul_right n (by omega)
    rw [Nat.succ_mul] at before
    omega

/- n % 256 ^ width, the least significant byte first. -/
def encode : Nat → Nat → List UInt8
  | 0, _ => []
  | width + 1, n => UInt8.ofNat n :: encode width (n / 256)

def decode : List UInt8 → Nat
  | [] => 0
  | b :: bs => b.toNat + 256 * decode bs

@[simp] theorem encode_length (width n : Nat) : (encode width n).length = width := by
  induction width generalizing n with
  | zero => rfl
  | succ width ih => simp [encode, ih]

theorem decode_encode (width n : Nat) : decode (encode width n) = n % 256 ^ width := by
  induction width generalizing n with
  | zero => simp [encode, decode, Nat.mod_one]
  | succ width ih =>
    simp only [encode, decode, ih, UInt8.toNat_ofNat']
    change n % 256 + 256 * (n / 256 % 256 ^ width) = n % (256 ^ width * 256)
    rw [Nat.mul_comm (256 ^ width)]
    exact Nat.mod_mul.symm

theorem decode_encode_of_lt {width n : Nat} (small : n < 256 ^ width) :
    decode (encode width n) = n := by
  rw [decode_encode, Nat.mod_eq_of_lt small]

end ByteBuffer
