/-!
# Binary formats

A format says how values of a type are written as bytes and read back. Formats
are put together from smaller ones, so that what is written and what is read
cannot drift apart. Numbers have a fixed width and come with their lowest byte
first; lists and texts are preceded by their length; an alternative is preceded
by its number.
-/

namespace Rulebook

/-- How values of a type are written as bytes and read back. Reading yields the bytes after
the value. -/
structure Format (α : Type) where
  write : α → List UInt8
  read : List UInt8 → Option (α × List UInt8)

namespace Format

variable {α β : Type}

/-- The lowest `width` bytes of a number, the lowest first. -/
def lowBytes : (width : Nat) → Nat → List UInt8
  | 0, _ => []
  | width + 1, n => UInt8.ofNat (n % 256) :: lowBytes width (n / 256)

/-- The number of the next `width` bytes. -/
def readBytes : (width : Nat) → List UInt8 → Option (Nat × List UInt8)
  | 0, bytes => some (0, bytes)
  | _ + 1, [] => none
  | width + 1, byte :: bytes => do
    let (high, rest) ← readBytes width bytes
    return (byte.toNat + 256 * high, rest)

/-- Numbers of a fixed width. -/
def nat (width : Nat) : Format Nat := ⟨lowBytes width, readBytes width⟩

/-- Numbers of 32 bits. -/
def nat32 : Format Nat := nat 4

/-- Numbers of 64 bits. -/
def nat64 : Format Nat := nat 8

/-- A format for a type whose values stand for values of another, some of which stand for
nothing. -/
def convert (format : Format α) (into : α → Option β) (back : β → α) : Format β where
  write b := format.write (back b)
  read bytes := do
    let (a, rest) ← format.read bytes
    return (← into a, rest)

/-- A format for a type whose values stand for those of another. -/
def map (format : Format α) (into : α → β) (back : β → α) : Format β :=
  format.convert (some ∘ into) back

/-- Two values, one after the other. -/
def pair (first : Format α) (second : Format β) : Format (α × β) where
  write ab := first.write ab.1 ++ second.write ab.2
  read bytes := do
    let (a, rest) ← first.read bytes
    let (b, rest) ← second.read rest
    return ((a, b), rest)

/-- Reads a number of values. -/
def readMany (read : List UInt8 → Option (α × List UInt8)) :
    (count : Nat) → List UInt8 → Option (List α × List UInt8)
  | 0, bytes => some ([], bytes)
  | count + 1, bytes => do
    let (a, rest) ← read bytes
    let (others, rest) ← readMany read count rest
    return (a :: others, rest)

/-- A list, after its length. -/
def list (format : Format α) : Format (List α) where
  write values := nat64.write values.length ++ values.flatMap format.write
  read bytes := do
    let (count, rest) ← nat64.read bytes
    readMany format.read count rest

/-- One byte. -/
def byte : Format UInt8 where
  write b := [b]
  read
    | [] => none
    | b :: rest => some (b, rest)

/-- A boolean, as the byte 0 or 1. -/
def bool : Format Bool :=
  byte.convert
    (fun b => if b = 0 then some false else if b = 1 then some true else none)
    (fun b => if b then 1 else 0)

/-- A value that may be absent, after a boolean that says whether it is there. -/
def option (format : Format α) : Format (Option α) where
  write
    | none => bool.write false
    | some a => bool.write true ++ format.write a
  read bytes := do
    let (there, rest) ← bool.read bytes
    if there then
      let (a, rest) ← format.read rest
      return (some a, rest)
    else return (none, rest)

/-- A number of bytes, after that number. -/
def bytes : Format (List UInt8) := list byte

/-- A text, as the bytes of its encoding, which must be sound. -/
def text : Format String :=
  bytes.convert (fun values => String.fromUTF8? ⟨values.toArray⟩) (fun s => s.toUTF8.toList)

/-- A value of a small type, as its place among all of them. -/
def among [DecidableEq α] (all : List α) : Format α :=
  nat32.convert (fun index => all[index]?) (fun a => all.idxOf a)

/-- One alternative of a type: how its values are told from others, written and read. -/
structure Branch (α : Type) where
  write? : α → Option (List UInt8)
  read : List UInt8 → Option (α × List UInt8)

/-- The alternative of the values that `wrap` makes. -/
def Branch.of (format : Format β) (wrap : β → α) (unwrap? : α → Option β) : Branch α where
  write? a := (unwrap? a).map format.write
  read bytes := do
    let (b, rest) ← format.read bytes
    return (wrap b, rest)

/-- Finds the alternative of a value and writes both, counting alternatives from `index`. -/
def writeBranch (a : α) (index : Nat) : List (Branch α) → List UInt8
  | [] => []
  | branch :: others =>
    match branch.write? a with
    | some payload => nat32.write index ++ payload
    | none => writeBranch a (index + 1) others

/-- One of several alternatives, after its number. -/
def branches (all : List (Branch α)) : Format α where
  write a := writeBranch a 0 all
  read bytes := do
    let (index, rest) ← nat32.read bytes
    (← all[index]?).read rest

/-- Nothing at all. -/
def nothing : Format Unit := ⟨fun _ => [], fun bytes => some ((), bytes)⟩

/-- Reads a value from the front of some bytes and ignores what follows. -/
def decode (format : Format α) (bytes : List UInt8) : Option α :=
  (format.read bytes).map Prod.fst

end Format

end Rulebook
