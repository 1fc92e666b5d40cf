/-
The frame both programs speak.

`$ | type(2) | ip(4) | size(4) | data | #`, with every field in network order.  A
`frame` is one such string of bytes, and `typeOf`, `ipOf`, `lengthOf` and `dataOf` read
the fields back off the front of any string that begins with one.

Nothing here belongs to either program.  Each program's encoder is shown to produce a
`frame`, and each one's decoder to read these fields, so that what one sends and the
other understands meet in this file.
-/
import CloudMeeting.Lib.Endian

namespace CloudMeeting.Wire

open Endian

/-- `'$'`, the byte a frame starts with. -/
def magic : UInt8 := 36

/-- `'#'`, the byte a frame ends with. -/
def tail : UInt8 := 35

/-- The bytes before the data: the magic byte, a type, an ip and a size. -/
def headerSize : Nat := 11

/-- The header of a frame. -/
def header (type : UInt16) (ip size : UInt32) : Bytes :=
  magic :: (beBytes 2 type.toNat ++ (beBytes 4 ip.toNat ++ beBytes 4 size.toNat))

/-- One frame, with the size field of its data. -/
def frame (type : UInt16) (ip : UInt32) (data : Bytes) : Bytes :=
  header type ip (UInt32.ofNat data.length) ++ data ++ [tail]

def typeOf (bs : Bytes) : UInt16 := UInt16.ofNat (beNat ((bs.drop 1).take 2))

def ipOf (bs : Bytes) : UInt32 := UInt32.ofNat (beNat ((bs.drop 3).take 4))

def lengthOf (bs : Bytes) : UInt32 := UInt32.ofNat (beNat ((bs.drop 7).take 4))

def dataOf (bs : Bytes) (n : Nat) : Bytes := (bs.drop headerSize).take n

/-! ### Fields of a frame -/

@[simp] theorem length_header (type : UInt16) (ip size : UInt32) :
    (header type ip size).length = headerSize := by
  simp [header, headerSize]

@[simp] theorem length_frame (type : UInt16) (ip : UInt32) (data : Bytes) :
    (frame type ip data).length = headerSize + data.length + 1 := by
  simp [frame, Nat.add_assoc]

theorem typeOf_header (type : UInt16) (ip size : UInt32) (more : Bytes) :
    typeOf (header type ip size ++ more) = type := by
  have hlt : type.toNat < 256 ^ 2 := type.toNat_lt
  have hcut : ((header type ip size ++ more).drop 1).take 2 = beBytes 2 type.toNat := by
    rw [header, List.cons_append, List.drop_succ_cons, List.drop_zero, List.append_assoc]
    exact List.take_left' (length_beBytes _ _)
  rw [typeOf, hcut, beNat_beBytes_of_lt hlt, UInt16.ofNat_toNat]

theorem ipOf_header (type : UInt16) (ip size : UInt32) (more : Bytes) :
    ipOf (header type ip size ++ more) = ip := by
  have hlt : ip.toNat < 256 ^ 4 := ip.toNat_lt
  have hcut : ((header type ip size ++ more).drop 3).take 4 = beBytes 4 ip.toNat := by
    rw [header, List.cons_append, List.drop_succ_cons, List.append_assoc, List.append_assoc,
      List.drop_left' (length_beBytes _ _)]
    exact List.take_left' (length_beBytes _ _)
  rw [ipOf, hcut, beNat_beBytes_of_lt hlt, UInt32.ofNat_toNat]

theorem lengthOf_header (type : UInt16) (ip size : UInt32) (more : Bytes) :
    lengthOf (header type ip size ++ more) = size := by
  have hlt : size.toNat < 256 ^ 4 := size.toNat_lt
  have hcut : ((header type ip size ++ more).drop 7).take 4 = beBytes 4 size.toNat := by
    rw [header, List.cons_append, List.drop_succ_cons, ← List.append_assoc (beBytes 2 _),
      List.append_assoc, List.drop_left' (by simp)]
    exact List.take_left' (length_beBytes _ _)
  rw [lengthOf, hcut, beNat_beBytes_of_lt hlt, UInt32.ofNat_toNat]

theorem dataOf_frame (type : UInt16) (ip : UInt32) (data more : Bytes) :
    dataOf (frame type ip data ++ more) data.length = data := by
  rw [dataOf, frame, List.append_assoc, List.append_assoc,
    List.drop_left' (length_header _ _ _)]
  exact List.take_left

theorem head_frame (type : UInt16) (ip : UInt32) (data more : Bytes) :
    (frame type ip data ++ more).headD 0 = magic := rfl

theorem tail_frame (type : UInt16) (ip : UInt32) (data more : Bytes) :
    (frame type ip data ++ more).getD (headerSize + data.length) 0 = tail := by
  have hlen : (header type ip (UInt32.ofNat data.length) ++ data).length
      = headerSize + data.length := by simp
  rw [frame, List.append_assoc, ← hlen, List.getD_eq_getElem?_getD,
    List.getElem?_append_right (Nat.le_refl _), Nat.sub_self]
  rfl

/-! ### More bytes behind -/

section Append

variable {bs : Bytes} (h : headerSize ≤ bs.length) (more : Bytes)

include h

private theorem field_append {i w : Nat} (hi : i + w ≤ headerSize) :
    ((bs ++ more).drop i).take w = (bs.drop i).take w := by
  rw [List.drop_append_of_le_length (by omega),
    List.take_append_of_le_length (by rw [List.length_drop]; omega)]

theorem typeOf_append : typeOf (bs ++ more) = typeOf bs := by
  rw [typeOf, typeOf, field_append h more (by decide)]

theorem ipOf_append : ipOf (bs ++ more) = ipOf bs := by
  rw [ipOf, ipOf, field_append h more (by decide)]

theorem lengthOf_append : lengthOf (bs ++ more) = lengthOf bs := by
  rw [lengthOf, lengthOf, field_append h more (by decide)]

theorem headD_append : (bs ++ more).headD 0 = bs.headD 0 := by
  cases bs with
  | nil => exact absurd h (by decide)
  | cons b bs => rfl

theorem dataOf_append {n : Nat} (hn : headerSize + n ≤ bs.length) :
    dataOf (bs ++ more) n = dataOf bs n := by
  rw [dataOf, dataOf, List.drop_append_of_le_length h,
    List.take_append_of_le_length (by rw [List.length_drop]; omega)]

end Append

theorem getD_append {bs : Bytes} {i : Nat} (h : i < bs.length) (more : Bytes) :
    (bs ++ more).getD i 0 = bs.getD i 0 := by
  rw [List.getD_eq_getElem?_getD, List.getD_eq_getElem?_getD, List.getElem?_append_left h]

/-! ### What begins like a frame is one -/

private theorem drop_eq_append (bs : Bytes) (i w : Nat) :
    bs.drop i = (bs.drop i).take w ++ bs.drop (i + w) := by
  rw [← List.drop_drop, List.take_append_drop]

private theorem beBytes_field {bs : Bytes} {i w : Nat} (h : i + w ≤ bs.length) :
    beBytes w (beNat ((bs.drop i).take w)) = (bs.drop i).take w := by
  have hlen : ((bs.drop i).take w).length = w := by
    rw [List.length_take, List.length_drop]
    omega
  have hbytes := beBytes_beNat ((bs.drop i).take w)
  rwa [hlen] at hbytes

private theorem beNat_field_lt (bs : Bytes) (i w : Nat) :
    beNat ((bs.drop i).take w) < 256 ^ w := by
  have hlen : ((bs.drop i).take w).length ≤ w := List.length_take_le ..
  exact (beNat_lt _).trans_le (Nat.pow_le_pow_right (by omega) hlen)

/-- A header is written as it was read. -/
theorem eq_header {bs : Bytes} (h : headerSize ≤ bs.length) (hmagic : bs.headD 0 = magic) :
    bs = header (typeOf bs) (ipOf bs) (lengthOf bs) ++ bs.drop headerSize := by
  unfold headerSize at h
  have htype : beBytes 2 (typeOf bs).toNat = (bs.drop 1).take 2 := by
    rw [typeOf, UInt16.toNat_ofNat_of_lt' (beNat_field_lt bs 1 2), beBytes_field (by omega)]
  have hip : beBytes 4 (ipOf bs).toNat = (bs.drop 3).take 4 := by
    rw [ipOf, UInt32.toNat_ofNat_of_lt' (beNat_field_lt bs 3 4), beBytes_field (by omega)]
  have hlength : beBytes 4 (lengthOf bs).toNat = (bs.drop 7).take 4 := by
    rw [lengthOf, UInt32.toNat_ofNat_of_lt' (beNat_field_lt bs 7 4), beBytes_field (by omega)]
  have hhead : bs = magic :: bs.drop 1 := by
    cases bs with
    | nil => simp at h
    | cons b bs => exact congrArg (· :: bs) hmagic
  have hfields : bs.drop 1 = (bs.drop 1).take 2 ++ ((bs.drop 3).take 4
      ++ ((bs.drop 7).take 4 ++ bs.drop headerSize)) := by
    calc bs.drop 1 = (bs.drop 1).take 2 ++ bs.drop 3 := drop_eq_append bs 1 2
      _ = (bs.drop 1).take 2 ++ ((bs.drop 3).take 4 ++ bs.drop 7) :=
          congrArg _ (drop_eq_append bs 3 4)
      _ = _ := congrArg _ (congrArg _ (drop_eq_append bs 7 4))
  rw [header, htype, hip, hlength, List.cons_append, List.append_assoc, List.append_assoc,
    ← hfields]
  exact hhead

/-- A string that has a header, room for its data and a tail behind begins with a frame. -/
theorem eq_frame {bs : Bytes} (h : headerSize + (lengthOf bs).toNat + 1 ≤ bs.length)
    (hmagic : bs.headD 0 = magic)
    (htail : bs.getD (headerSize + (lengthOf bs).toNat) 0 = tail) :
    bs = frame (typeOf bs) (ipOf bs) (dataOf bs (lengthOf bs).toNat)
      ++ bs.drop (headerSize + (lengthOf bs).toNat + 1) := by
  have hsize : UInt32.ofNat (dataOf bs (lengthOf bs).toNat).length = lengthOf bs := by
    have hlen : (dataOf bs (lengthOf bs).toNat).length = (lengthOf bs).toNat := by
      rw [dataOf, List.length_take, List.length_drop]
      omega
    rw [hlen, UInt32.ofNat_toNat]
  have hlast : bs.drop (headerSize + (lengthOf bs).toNat)
      = tail :: bs.drop (headerSize + (lengthOf bs).toNat + 1) := by
    have hlt : headerSize + (lengthOf bs).toNat < bs.length := by omega
    rw [List.drop_eq_getElem_cons hlt, ← htail, List.getD_eq_getElem?_getD,
      List.getElem?_eq_getElem hlt, Option.getD_some]
  calc bs = header (typeOf bs) (ipOf bs) (lengthOf bs) ++ bs.drop headerSize :=
        eq_header (by omega) hmagic
    _ = header (typeOf bs) (ipOf bs) (lengthOf bs) ++ (dataOf bs (lengthOf bs).toNat
        ++ (tail :: bs.drop (headerSize + (lengthOf bs).toNat + 1))) := by
        rw [drop_eq_append bs headerSize (lengthOf bs).toNat, hlast]
        rfl
    _ = _ := by
        rw [frame, hsize]
        simp

end CloudMeeting.Wire
