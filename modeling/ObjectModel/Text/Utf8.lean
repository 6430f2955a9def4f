/-!
Bytes that may not be UTF-8.

A byte sequence is read character by character. Where it is malformed, the bytes that begin a character but
cannot complete it form one fault; a byte that cannot begin a character is a fault by itself. `utf8Fault?`
finds the first fault, `lossy` reads on and shows each fault as one replacement character.
-/

namespace ObjectModel.Text

/-- A place at which bytes are not UTF-8, with the number of bytes at fault; the number is missing when the
bytes end in the middle of a character. -/
structure Utf8Fault where
  index : Nat
  length : Option Nat
  deriving DecidableEq, Repr

def Utf8Fault.message (f : Utf8Fault) : String :=
  match f.length with
  | some n => "invalid utf-8 sequence of " ++ toString n ++ " bytes from index " ++ toString f.index
  | none => "incomplete utf-8 byte sequence from index " ++ toString f.index

/-- What a byte sequence begins with: a character or a fault of so many bytes, or a character that the
sequence ends before. -/
inductive Utf8Head where
  | character (size : Nat)
  | malformed (size : Nat)
  | unfinished
  deriving DecidableEq, Repr

/-- How many bytes follow a first byte, and the range of the first of them. -/
def following (first : UInt8) : Option (Nat × UInt8 × UInt8) :=
  if first < 0x80 then some (0, 0x80, 0xBF)
  else if first < 0xC2 then none
  else if first < 0xE0 then some (1, 0x80, 0xBF)
  else if first = 0xE0 then some (2, 0xA0, 0xBF)
  else if first = 0xED then some (2, 0x80, 0x9F)
  else if first < 0xF0 then some (2, 0x80, 0xBF)
  else if first = 0xF0 then some (3, 0x90, 0xBF)
  else if first < 0xF4 then some (3, 0x80, 0xBF)
  else if first = 0xF4 then some (3, 0x80, 0x8F)
  else none

/-- Read on in a character of which `size` bytes are read; the next byte has a range of its own. -/
def continued (size : Nat) : Nat → UInt8 → UInt8 → List UInt8 → Utf8Head
  | 0, _, _, _ => .character size
  | _ + 1, _, _, [] => .unfinished
  | left + 1, low, high, b :: rest =>
    if low ≤ b && b ≤ high then continued (size + 1) left 0x80 0xBF rest else .malformed size

def utf8Head (first : UInt8) (rest : List UInt8) : Utf8Head :=
  match following first with
  | none => .malformed 1
  | some (left, low, high) => continued 1 left low high rest

def faultFrom (index : Nat) (bytes : List UInt8) : Option Utf8Fault :=
  match bytes with
  | [] => none
  | b :: rest =>
    match utf8Head b rest with
    | .character size => faultFrom (index + size) (rest.drop (size - 1))
    | .malformed size => some ⟨index, some size⟩
    | .unfinished => some ⟨index, none⟩
termination_by bytes.length
decreasing_by simp only [List.length_cons, List.length_drop]; omega

def utf8Fault? (bytes : ByteArray) : Option Utf8Fault := faultFrom 0 bytes.toList

def decodeChar (first : UInt8) (rest : List UInt8) : Char :=
  let lead := if rest.isEmpty then first.toNat else first.toNat % Nat.pow 2 (6 - rest.length)
  Char.ofNat (rest.foldl (fun acc b => acc * 64 + b.toNat % 64) lead)

def replacement : Char := Char.ofNat 0xFFFD

/-- The characters of a byte sequence, with one replacement for each fault. -/
def lossyChars (bytes : List UInt8) : List Char :=
  match bytes with
  | [] => []
  | b :: rest =>
    match utf8Head b rest with
    | .character size => decodeChar b (rest.take (size - 1)) :: lossyChars (rest.drop (size - 1))
    | .malformed size => replacement :: lossyChars (rest.drop (size - 1))
    | .unfinished => [replacement]
termination_by bytes.length
decreasing_by all_goals simp only [List.length_cons, List.length_drop]; omega

def lossy (bytes : ByteArray) : String :=
  match String.fromUTF8? bytes with
  | some s => s
  | none => String.ofList (lossyChars bytes.toList)

end ObjectModel.Text
