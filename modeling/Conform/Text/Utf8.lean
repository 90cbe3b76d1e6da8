/-!
Reading UTF-8. A sequence that is cut short or broken is reported with the bytes up to the first
that does not fit; nothing is replaced or skipped.
-/

namespace Conform.Text.Utf8

inductive Cause where
  | startByte
  | continuationByte
  | endOfData
  deriving DecidableEq, Repr

/-- The bytes at fault: `length` of them from `start` on, the first being `byte`. -/
structure Fault where
  cause : Cause
  start : Nat
  length : Nat
  byte : Nat
  deriving DecidableEq, Repr

/-- How a sequence goes on after its first byte. -/
structure Lead where
  /-- Bytes that follow the first. -/
  more : Nat
  /-- The bits that the first byte contributes. -/
  bits : Nat
  /-- Bounds of the second byte. -/
  low : Nat := 0x80
  high : Nat := 0xbf

/-- What a first byte announces. The bounds of the second byte shut out overlong forms, surrogates
and code points above the last. -/
def lead? (b : Nat) : Option Lead :=
  if b < 0x80 then some { more := 0, bits := b }
  else if b < 0xc2 then none
  else if b < 0xe0 then some { more := 1, bits := b - 0xc0 }
  else if b = 0xe0 then some { more := 2, bits := 0, low := 0xa0 }
  else if b = 0xed then some { more := 2, bits := 0xd, high := 0x9f }
  else if b < 0xf0 then some { more := 2, bits := b - 0xe0 }
  else if b = 0xf0 then some { more := 3, bits := 0, low := 0x90 }
  else if b < 0xf4 then some { more := 3, bits := b - 0xf0 }
  else if b = 0xf4 then some { more := 3, bits := 4, high := 0x8f }
  else none

/-- The rest of a sequence: its code point and the bytes after it, or the cause and how many bytes
fitted. -/
def follow : (more bits low high fitted : Nat) → List UInt8 →
    Except (Cause × Nat) (Nat × List UInt8)
  | 0, bits, _, _, _, r => .ok (bits, r)
  | _ + 1, _, _, _, fitted, [] => .error (.endOfData, fitted)
  | more + 1, bits, low, high, fitted, b :: r =>
    if low ≤ b.toNat && b.toNat ≤ high then
      follow more (bits * 0x40 + (b.toNat - 0x80)) 0x80 0xbf (fitted + 1) r
    else .error (.continuationByte, fitted)

/-- One character and the bytes after it. -/
def next (start : Nat) (b : UInt8) (r : List UInt8) : Except Fault (Char × List UInt8) :=
  match lead? b.toNat with
  | none => .error ⟨.startByte, start, 1, b.toNat⟩
  | some l =>
    match follow l.more l.bits l.low l.high 1 r with
    | .error (cause, fitted) => .error ⟨cause, start, fitted, b.toNat⟩
    | .ok (c, r) => .ok (Char.ofNat c, r)

theorem length_of_follow {more bits low high fitted c : Nat} {bs r : List UInt8}
    (h : follow more bits low high fitted bs = .ok (c, r)) : bs.length = more + r.length := by
  fun_induction follow more bits low high fitted bs with
  | case1 => simp_all
  | case2 => simp at h
  | case3 _ _ _ _ _ _ _ _ ih => have := ih h; simp only [List.length_cons]; omega
  | case4 => simp at h

theorem length_of_next {start : Nat} {b : UInt8} {bs r : List UInt8} {c : Char}
    (h : next start b bs = .ok (c, r)) : r.length ≤ bs.length := by
  unfold next at h
  split at h
  · simp at h
  · split at h
    · simp at h
    · rename_i hf
      simp only [Except.ok.injEq, Prod.mk.injEq] at h
      have := length_of_follow hf
      rw [← h.2]
      omega

/-- Reads all bytes; `start` is the offset of the first. -/
def decodeFrom (start : Nat) : List UInt8 → Except Fault (List Char)
  | [] => .ok []
  | b :: r =>
    match _read : next start b r with
    | .error e => .error e
    | .ok (c, rest) =>
      match decodeFrom (start + c.utf8Size) rest with
      | .error e => .error e
      | .ok cs => .ok (c :: cs)
  termination_by bs => bs.length
  decreasing_by
    have := length_of_next ‹_›
    simp only [List.length_cons]
    omega

/-- Reads all bytes as text. -/
def decode (bs : List UInt8) : Except Fault (List Char) := decodeFrom 0 bs

/-- Reads all bytes; those at fault become what `mend` makes of them. -/
def decodeMending (mend : List UInt8 → List Char) : List UInt8 → List Char
  | [] => []
  | b :: r =>
    match _read : next 0 b r with
    | .ok (c, rest) => c :: decodeMending mend rest
    | .error f => mend (b :: r.take (f.length - 1)) ++ decodeMending mend (r.drop (f.length - 1))
  termination_by bs => bs.length
  decreasing_by
    · have := length_of_next ‹_›
      simp only [List.length_cons]
      omega
    · simp only [List.length_cons, List.length_drop]
      omega

def withoutMark : List UInt8 → List UInt8
  | 0xef :: 0xbb :: 0xbf :: r => r
  | bs => bs

def Cause.message : Cause → String
  | .startByte => "invalid start byte"
  | .continuationByte => "invalid continuation byte"
  | .endOfData => "unexpected end of data"

private def hex2 (n : Nat) : String :=
  String.ofList [Nat.digitChar (n / 16), Nat.digitChar (n % 16)]

/-- All bytes as text; a byte at fault is shown by its value, after a backslash. -/
def decodeShowing (bs : List UInt8) : List Char :=
  decodeMending (fun faulty => faulty.flatMap fun b => ("\\x" ++ hex2 b.toNat).toList) bs

/-- All bytes as text; bytes at fault become one replacement character. -/
def decodeReplacing (bs : List UInt8) : List Char := decodeMending (fun _ => ['\ufffd']) bs

def encode (cs : List Char) : List UInt8 := cs.flatMap String.utf8EncodeChar

/-- A fault in words; one byte is shown, several are told by their offsets. -/
def Fault.message (f : Fault) : String :=
  "'utf-8' codec can't decode " ++
  (if f.length = 1 then "byte 0x" ++ hex2 f.byte ++ " in position " ++ toString f.start
    else "bytes in position " ++ toString f.start ++ "-" ++ toString (f.start + f.length - 1)) ++
  ": " ++ f.cause.message

end Conform.Text.Utf8
