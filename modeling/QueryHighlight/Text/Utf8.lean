/-!
# UTF-8

A query arrives as bytes and is read as UTF-8.  The first byte of a character
announces how many bytes follow and narrows the range of the second one, which
is how overlong forms, surrogates and code points past the last one are ruled
out.  `decode` reads every character, or stops at the first byte sequence that
cannot be one and says where it lies and what is wrong with it.
-/

namespace QueryHighlight
namespace Utf8

/-! ## Faults -/

/-- What can be wrong with a byte sequence. -/
inductive Reason where
  /-- No character starts with this byte. -/
  | invalidStart
  /-- A byte stands where another byte of the same character is due. -/
  | invalidContinuation
  /-- The bytes end in the middle of a character. -/
  | unexpectedEnd
deriving DecidableEq, Repr

/-- The first byte sequence of an input that is not a character. -/
structure Fault where
  /-- The position of its first byte. -/
  position : Nat
  /-- Its first byte. -/
  lead : UInt8
  /-- How many further bytes belong to the faulty sequence. -/
  following : Nat
  /-- What is wrong with it. -/
  reason : Reason
deriving DecidableEq, Repr

/-- The words for a reason. -/
def Reason.message : Reason → String
  | .invalidStart => "invalid start byte"
  | .invalidContinuation => "invalid continuation byte"
  | .unexpectedEnd => "unexpected end of data"

/-- The two hexadecimal digits of a byte. -/
def byteDigits (byte : UInt8) : String :=
  String.ofList [Nat.digitChar (byte.toNat / 16), Nat.digitChar (byte.toNat % 16)]

/-- A fault of one byte shows the byte; a longer one shows its first and its
last position. -/
def Fault.message (fault : Fault) : String :=
  "'utf-8' codec can't decode " ++
    (if fault.following = 0 then
      "byte 0x" ++ byteDigits fault.lead ++ " in position " ++ toString fault.position
    else
      "bytes in position " ++ toString fault.position ++ "-" ++
        toString (fault.position + fault.following)) ++
    ": " ++ fault.reason.message

/-! ## Reading one character -/

/-- What the bytes read so far say about the rest of their character. -/
structure Pending where
  /-- How many bytes are still due. -/
  due : Nat
  /-- The least value that the next byte may have. -/
  least : UInt8
  /-- The greatest value that the next byte may have. -/
  greatest : UInt8
  /-- The value of the bits read so far. -/
  bits : Nat

/-- What the first byte of a character announces, or nothing when no character
starts with it. -/
def announce (lead : UInt8) : Option Pending :=
  if lead < 0x80 then some ⟨0, 0x80, 0xBF, lead.toNat⟩
  else if lead < 0xC2 then none
  else if lead < 0xE0 then some ⟨1, 0x80, 0xBF, lead.toNat - 0xC0⟩
  else if lead < 0xF0 then
    some ⟨2, if lead = 0xE0 then 0xA0 else 0x80, if lead = 0xED then 0x9F else 0xBF,
      lead.toNat - 0xE0⟩
  else if lead < 0xF5 then
    some ⟨3, if lead = 0xF0 then 0x90 else 0x80, if lead = 0xF4 then 0x8F else 0xBF,
      lead.toNat - 0xF0⟩
  else none

/-- A sequence that stops being a character: how many bytes after the first
still fitted, and why the next one does not. -/
structure Break where
  /-- The bytes after the first that fitted. -/
  following : Nat
  /-- Why there is no character. -/
  reason : Reason

/-- Reads the bytes that are still due; `read` counts those already taken after
the first.  The result is the code point and the bytes after the character. -/
def continueWith : (due : Nat) → (least greatest : UInt8) → (bits read : Nat) →
    List UInt8 → Except Break (Nat × List UInt8)
  | 0, _, _, bits, _, rest => .ok (bits, rest)
  | _ + 1, _, _, _, read, [] => .error ⟨read, .unexpectedEnd⟩
  | due + 1, least, greatest, bits, read, byte :: rest =>
    if least ≤ byte ∧ byte ≤ greatest then
      continueWith due 0x80 0xBF (bits * 64 + (byte.toNat - 0x80)) (read + 1) rest
    else .error ⟨read, .invalidContinuation⟩

theorem length_le_of_continueWith {due : Nat} {least greatest : UInt8}
    {bits read : Nat} {bytes : List UInt8} {point : Nat} {rest : List UInt8}
    (h : continueWith due least greatest bits read bytes = .ok (point, rest)) :
    rest.length ≤ bytes.length := by
  fun_induction continueWith due least greatest bits read bytes with
  | case1 => simp only [Except.ok.injEq, Prod.mk.injEq] at h; simp [h.2]
  | case2 => simp at h
  | case3 _ _ _ _ _ _ _ _ ih => exact Nat.le_succ_of_le (ih h)
  | case4 => simp at h

/-- A character read from the front of an input. -/
structure Decoded where
  /-- The character. -/
  char : Char
  /-- How many bytes it takes. -/
  width : Nat
  /-- The bytes after it. -/
  rest : List UInt8

/-- Reads the character that starts with `lead`. -/
def decodeChar (lead : UInt8) (bytes : List UInt8) : Except Break Decoded :=
  match announce lead with
  | none => .error ⟨0, .invalidStart⟩
  | some pending =>
    match
      continueWith pending.due pending.least pending.greatest pending.bits 0 bytes
    with
    | .error stopped => .error stopped
    | .ok (point, rest) => .ok ⟨Char.ofNat point, pending.due + 1, rest⟩

theorem length_le_of_decodeChar {lead : UInt8} {bytes : List UInt8}
    {decoded : Decoded} (h : decodeChar lead bytes = .ok decoded) :
    decoded.rest.length ≤ bytes.length := by
  unfold decodeChar at h
  split at h
  · simp at h
  · split at h
    · simp at h
    · next hread =>
      simp only [Except.ok.injEq] at h
      exact h ▸ length_le_of_continueWith hread

/-! ## Reading a whole input -/

/-- The loop of `decode`: `position` bytes lie before the ones left, and `done`
holds the characters read from them, last one first. -/
def decodeOnto (position : Nat) (done : List Char) :
    List UInt8 → Except Fault (List Char)
  | [] => .ok done.reverse
  | lead :: bytes =>
    match _hread : decodeChar lead bytes with
    | .error stopped => .error ⟨position, lead, stopped.following, stopped.reason⟩
    | .ok decoded =>
      decodeOnto (position + decoded.width) (decoded.char :: done) decoded.rest
termination_by bytes => bytes.length
decreasing_by
  have := length_le_of_decodeChar _hread
  simp only [List.length_cons]; omega

/-- The characters of a UTF-8 input, or its first fault. -/
def decode (bytes : List UInt8) : Except Fault (List Char) :=
  decodeOnto 0 [] bytes

end Utf8
end QueryHighlight
