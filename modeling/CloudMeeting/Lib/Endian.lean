/-
Bytes of a machine integer, in both orders.

An integer of `w` bytes is laid out least significant byte first (`leBytes`) or,
reversed, most significant byte first (`beBytes`).  Reading a layout back is
`leNat` and `beNat`.  Everything a wire format needs of them is here: a read
undoes a write, a write undoes a read, and a layout has the length it says.  The last
part is about a little-endian host, whose memory copies go through `htonl` and its kin.

The width is a parameter, so the two- and four-byte fields of a header are two
uses of one set of lemmas.
-/
import Mathlib.Tactic.Common
import Mathlib.Algebra.Order.Group.Nat

namespace CloudMeeting

/-- A string of bytes. -/
abbrev Bytes := List UInt8

namespace Endian

/-- The low `w` bytes of `n`, least significant first. -/
def leBytes : Nat → Nat → Bytes
  | 0, _ => []
  | w + 1, n => UInt8.ofNat n :: leBytes w (n / 256)

/-- The number a little-endian layout stands for. -/
def leNat : Bytes → Nat
  | [] => 0
  | b :: bs => b.toNat + 256 * leNat bs

/-- The low `w` bytes of `n`, most significant first. -/
def beBytes (w n : Nat) : Bytes := (leBytes w n).reverse

/-- The number a big-endian layout stands for. -/
def beNat (bs : Bytes) : Nat := leNat bs.reverse

/-! ### Lengths and bounds -/

@[simp] theorem length_leBytes (w n : Nat) : (leBytes w n).length = w := by
  induction w generalizing n with
  | zero => rfl
  | succ w ih => simp [leBytes, ih]

@[simp] theorem length_beBytes (w n : Nat) : (beBytes w n).length = w := by
  simp [beBytes]

theorem leNat_lt (bs : Bytes) : leNat bs < 256 ^ bs.length := by
  induction bs with
  | nil => simp [leNat]
  | cons b bs ih =>
      have hb : b.toNat < 256 := b.toNat_lt
      simp only [leNat, List.length_cons, Nat.pow_succ]
      omega

theorem leNat_append (bs more : Bytes) :
    leNat (bs ++ more) = leNat bs + 256 ^ bs.length * leNat more := by
  induction bs with
  | nil => simp [leNat]
  | cons b bs ih =>
      rw [List.cons_append, leNat, leNat, ih, List.length_cons, Nat.pow_succ, Nat.mul_add,
        Nat.add_assoc, Nat.mul_comm (256 ^ bs.length) 256, Nat.mul_assoc]

theorem beNat_lt (bs : Bytes) : beNat bs < 256 ^ bs.length := by
  simpa [beNat] using leNat_lt bs.reverse

/-! ### Reading undoes writing -/

theorem leNat_leBytes (w n : Nat) : leNat (leBytes w n) = n % 256 ^ w := by
  induction w generalizing n with
  | zero => simp [leBytes, leNat, Nat.mod_one]
  | succ w ih =>
      have hb : (UInt8.ofNat n).toNat = n % 256 := UInt8.toNat_ofNat'
      rw [leBytes, leNat, ih, hb, Nat.pow_succ, Nat.mul_comm (256 ^ w) 256, Nat.mod_mul]

theorem beNat_beBytes (w n : Nat) : beNat (beBytes w n) = n % 256 ^ w := by
  simp [beNat, beBytes, leNat_leBytes]

theorem beNat_beBytes_of_lt {w n : Nat} (h : n < 256 ^ w) : beNat (beBytes w n) = n := by
  rw [beNat_beBytes, Nat.mod_eq_of_lt h]

/-! ### Writing undoes reading -/

theorem leBytes_leNat (bs : Bytes) : leBytes bs.length (leNat bs) = bs := by
  induction bs with
  | nil => rfl
  | cons b bs ih =>
      have hb : b.toNat < 256 := b.toNat_lt
      have hhead : UInt8.ofNat (b.toNat + 256 * leNat bs) = b := by
        rw [← UInt8.toNat_inj, UInt8.toNat_ofNat']
        omega
      have htail : (b.toNat + 256 * leNat bs) / 256 = leNat bs := by omega
      rw [List.length_cons, leNat, leBytes, hhead, htail, ih]

theorem beBytes_beNat (bs : Bytes) : beBytes bs.length (beNat bs) = bs := by
  have h := leBytes_leNat bs.reverse
  rw [List.length_reverse] at h
  rw [beBytes, beNat, h, List.reverse_reverse]

/-! ### A little-endian host

Copying bytes into an integer, or an integer into bytes, follows the host's own order.
`htons` and `htonl` exchange it for network order, and are their own inverses.
-/

/-- The `w` bytes of `n` in the opposite order. -/
def swap (w n : Nat) : Nat := beNat (leBytes w n)

theorem swap_lt (w n : Nat) : swap w n < 256 ^ w := by
  have h := beNat_lt (leBytes w n)
  rwa [length_leBytes] at h

theorem leBytes_swap (w n : Nat) : leBytes w (swap w n) = beBytes w n := by
  have h := leBytes_leNat (beBytes w n)
  rw [length_beBytes] at h
  rwa [beBytes] at h ⊢

theorem swap_leNat (bs : Bytes) : swap bs.length (leNat bs) = beNat bs := by
  rw [swap, leBytes_leNat]

theorem swap_swap {w n : Nat} (h : n < 256 ^ w) : swap w (swap w n) = n := by
  rw [swap, leBytes_swap, beNat_beBytes_of_lt h]

/-- The lowest byte comes to stand highest. -/
theorem swap_succ (w n : Nat) : swap (w + 1) n = n % 256 * 256 ^ w + swap w (n / 256) := by
  have hb : (UInt8.ofNat n).toNat = n % 256 := UInt8.toNat_ofNat'
  rw [swap, leBytes, beNat, List.reverse_cons, leNat_append, List.length_reverse, length_leBytes,
    leNat, leNat, hb, swap, beNat, Nat.mul_zero, Nat.add_zero, Nat.add_comm, Nat.mul_comm]

theorem swap_eq_zero {w n : Nat} (h : n < 256 ^ w) : swap w n = 0 ↔ n = 0 := by
  have hzero : ∀ w, swap w 0 = 0 := by
    intro w
    induction w with
    | zero => rfl
    | succ w ih => rw [swap_succ, Nat.zero_mod, Nat.zero_div, ih, Nat.zero_mul]
  constructor
  · intro hn
    rw [← swap_swap h, hn, hzero]
  · intro hn
    rw [hn, hzero]

/-- The sign bit of a swapped number is the highest bit of its lowest byte. -/
theorem swap_lt_half {w n : Nat} : swap (w + 1) n < 128 * 256 ^ w ↔ n % 256 < 128 := by
  have hlt := swap_lt w (n / 256)
  rw [swap_succ]
  constructor
  · intro h
    by_contra hge
    have := Nat.mul_le_mul_right (256 ^ w) (Nat.le_of_not_lt hge)
    omega
  · intro h
    have := Nat.mul_le_mul_right (256 ^ w) (Nat.succ_le_of_lt h)
    rw [Nat.succ_mul] at this
    omega

def load16 (data : Bytes) : UInt16 := UInt16.ofNat (leNat (data.take 2))

def load32 (data : Bytes) : UInt32 := UInt32.ofNat (leNat (data.take 4))

def store16 (value : UInt16) : Bytes := leBytes 2 value.toNat

def store32 (value : UInt32) : Bytes := leBytes 4 value.toNat

def htons (value : UInt16) : UInt16 := UInt16.ofNat (swap 2 value.toNat)

def htonl (value : UInt32) : UInt32 := UInt32.ofNat (swap 4 value.toNat)

def ntohs (value : UInt16) : UInt16 := htons value

def ntohl (value : UInt32) : UInt32 := htonl value

@[simp] theorem length_store16 (value : UInt16) : (store16 value).length = 2 := by
  simp [store16]

@[simp] theorem length_store32 (value : UInt32) : (store32 value).length = 4 := by
  simp [store32]

theorem load32_store32 (value : UInt32) : load32 (store32 value) = value := by
  have hlt : value.toNat < 256 ^ 4 := value.toNat_lt
  rw [load32, store32, List.take_of_length_le (by rw [length_leBytes]), leNat_leBytes,
    Nat.mod_eq_of_lt hlt, UInt32.ofNat_toNat]

theorem store32_load32 {data : Bytes} (h : data.length = 4) : store32 (load32 data) = data := by
  have hlt : leNat data < 2 ^ 32 := by
    have hlt := leNat_lt data
    rwa [h] at hlt
  rw [store32, load32, List.take_of_length_le (Nat.le_of_eq h), UInt32.toNat_ofNat',
    Nat.mod_eq_of_lt hlt, ← h, leBytes_leNat]

theorem toNat_htonl (value : UInt32) : (htonl value).toNat = swap 4 value.toNat := by
  have h := swap_lt 4 value.toNat
  rw [htonl, UInt32.toNat_ofNat', Nat.mod_eq_of_lt (by simpa using h)]

@[simp] theorem htonl_htonl (value : UInt32) : htonl (htonl value) = value := by
  have hlt : value.toNat < 256 ^ 4 := value.toNat_lt
  rw [htonl, toNat_htonl, swap_swap hlt, UInt32.ofNat_toNat]

theorem store16_htons (value : UInt16) : store16 (htons value) = beBytes 2 value.toNat := by
  have h := swap_lt 2 value.toNat
  rw [store16, htons, UInt16.toNat_ofNat', Nat.mod_eq_of_lt (by simpa using h), leBytes_swap]

theorem store32_htonl (value : UInt32) : store32 (htonl value) = beBytes 4 value.toNat := by
  rw [store32, toNat_htonl, leBytes_swap]

theorem ntohs_load16 {data : Bytes} (h : 2 ≤ data.length) :
    ntohs (load16 data) = UInt16.ofNat (beNat (data.take 2)) := by
  have hlen : (data.take 2).length = 2 := by rw [List.length_take]; omega
  have hlt := leNat_lt (data.take 2)
  rw [hlen] at hlt
  rw [ntohs, htons, load16, UInt16.toNat_ofNat', Nat.mod_eq_of_lt (by simpa using hlt)]
  have hswap := swap_leNat (data.take 2)
  rw [hlen] at hswap
  rw [hswap]

theorem ntohl_load32 {data : Bytes} (h : 4 ≤ data.length) :
    ntohl (load32 data) = UInt32.ofNat (beNat (data.take 4)) := by
  have hlen : (data.take 4).length = 4 := by rw [List.length_take]; omega
  have hlt := leNat_lt (data.take 4)
  rw [hlen] at hlt
  rw [ntohl, htonl, load32, UInt32.toNat_ofNat', Nat.mod_eq_of_lt (by simpa using hlt)]
  have hswap := swap_leNat (data.take 4)
  rw [hlen] at hswap
  rw [hswap]

end Endian

end CloudMeeting
