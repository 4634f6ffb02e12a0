/-!
# Written forms of numbers and records

Log lines and rendered values share a handful of written forms: hexadecimal numbers with and
without zero padding, left-justified names, and records with named fields.  They are kept here so
that every other module renders through the same functions.

Main definitions: `hex`, `hexPadded`, `hexLower`, `record`, `optional`.  The length lemma
`length_padLeft` is the whole law of padding: a field is never truncated.
-/

namespace CardHost.Text

/-- The digits of `n` in base sixteen, most significant first, with `A` to `F` for ten to
fifteen. -/
def hexDigits (n : Nat) : List Char :=
  (Nat.toDigits 16 n).map Char.toUpper

/-- Fills `digits` up to `width` characters with `fill` in front. -/
def padLeft (width : Nat) (fill : Char) (digits : List Char) : List Char :=
  List.replicate (width - digits.length) fill ++ digits

/-- Padding reaches the width and never cuts. -/
theorem length_padLeft (width : Nat) (fill : Char) (digits : List Char) :
    (padLeft width fill digits).length = max width digits.length := by
  simp only [padLeft, List.length_append, List.length_replicate]
  omega

/-- Fills `text` up to `width` characters with blanks behind. -/
def padRight (width : Nat) (text : String) : String :=
  text ++ String.ofList (List.replicate (width - text.length) ' ')

/-- A number in base sixteen, such as `0x1FFF`. -/
def hex (n : Nat) : String :=
  "0x" ++ String.ofList (hexDigits n)

/-- A number in base sixteen with at least `digits` digits, such as `0x02C`. -/
def hexPadded (digits n : Nat) : String :=
  "0x" ++ String.ofList (padLeft digits '0' (hexDigits n))

/-- A register offset: three digits. -/
def offset (n : Nat) : String :=
  hexPadded 3 n

/-- A register value: eight digits. -/
def word (w : UInt32) : String :=
  hexPadded 8 w.toNat

/-- A number in base sixteen with lower case digits. -/
def hexLower (n : Nat) : String :=
  "0x" ++ String.ofList (Nat.toDigits 16 n)

/-- A record with named fields, such as `Point { x: 1, y: 2 }`. -/
def record (name : String) (fields : List (String × String)) : String :=
  name ++ " \x7b " ++ ", ".intercalate (fields.map fun f => f.1 ++ ": " ++ f.2) ++ " \x7d"

/-- A value that may be absent: `Some(5)` or `None`. -/
def optional (render : α → String) : Option α → String
  | some a => "Some(" ++ render a ++ ")"
  | none => "None"

end CardHost.Text
