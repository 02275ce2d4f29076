import SasTests.Python.Json

/-!
# Numbers in a buffer

`struct.unpack_from` for unsigned little-endian numbers.
-/

namespace Python

/-- The number that the bytes write, the lowest byte first. -/
def littleEndian : List UInt8 → ℕ
  | [] => 0
  | b :: rest => b.toNat + 256 * littleEndian rest

/-- `struct.unpack_from("<H", buffer, offset)[0]` for `width = 2`, and with `"<I"` for `width = 4`.
-/
def unpackOne (width : ℕ) (buffer : List UInt8) (offset : ℕ) : Except PyError ℕ :=
  if buffer.length < offset + width then .error .structError
  else .ok (littleEndian (buffer.extract offset (offset + width)))

/-- `struct.unpack_from(f"<{n}I", buffer, offset)`: `n` numbers of four bytes. -/
def unpackMany (n : ℕ) (buffer : List UInt8) (offset : ℕ) : Except PyError (List ℕ) :=
  if buffer.length < offset + 4 * n then .error .structError
  else .ok ((List.range n).map fun k =>
    littleEndian (buffer.extract (offset + 4 * k) (offset + 4 * k + 4)))

/-- `xs[0]` for a tuple. -/
def firstItem {α : Type} (xs : List α) : Except PyError α :=
  match xs.head? with
  | some x => .ok x
  | none => .error .indexError

/-- `xs[-1]` for a tuple. -/
def lastItem {α : Type} (xs : List α) : Except PyError α :=
  match xs.getLast? with
  | some x => .ok x
  | none => .error .indexError

example : unpackMany 2 [0, 1, 2, 0, 0, 3, 0, 0, 0] 1 = .ok [513, 3] := by decide

end Python
