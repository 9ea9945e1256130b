set_option autoImplicit false

/-! # Blanks, line breaks and comments

What may stand between the parts of a TOML text. A comment runs to the end of its line. Readers work
on the front of a list of characters and return what they leave. -/

namespace Pipework.Toml

/-- A space or a tab. -/
def isBlank (c : Char) : Bool := c == ' ' || c == '\t'

/-- A character that may stand in a comment or a string: any but the control characters, of which a
    tab may stand there. -/
def isText (c : Char) : Bool := c == '\t' || (0x20 ≤ c.toNat && c.toNat != 0x7F)

/-- What follows `c`, if a text starts with it. -/
def skip? (c : Char) : List Char → Option (List Char)
  | next :: rest => if next == c then some rest else none
  | [] => none

/-- A text without the blanks that it starts with. -/
def skipBlanks (chars : List Char) : List Char := chars.dropWhile isBlank

/-- What follows the line break that a text starts with. -/
def skipBreak? : List Char → Option (List Char)
  | '\n' :: rest => some rest
  | '\r' :: '\n' :: rest => some rest
  | _ => none

theorem length_of_skipBreak? {chars rest : List Char} (h : skipBreak? chars = some rest) :
    rest.length < chars.length := by
  unfold skipBreak? at h
  split at h <;> simp_all only [Option.some.injEq, reduceCtorEq]
  · simp
  · simp only [List.length_cons]
    omega

/-- A text without the blanks and line breaks that it starts with. -/
def skipLines : List Char → List Char
  | [] => []
  | '\r' :: '\n' :: rest => skipLines rest
  | c :: rest => if isBlank c || c == '\n' then skipLines rest else c :: rest

theorem length_skipLines_le (chars : List Char) : (skipLines chars).length ≤ chars.length := by
  fun_induction skipLines chars with
  | case1 => simp
  | case2 rest ih =>
    simp only [List.length_cons]
    omega
  | case3 c rest _ _ ih =>
    simp only [List.length_cons]
    omega
  | case4 => simp

/-- A text without the blanks, line breaks and comments that it starts with. -/
def skipGap (chars : List Char) : List Char :=
  match chars with
  | [] => []
  | '\r' :: '\n' :: rest => skipGap rest
  | c :: rest =>
    if isBlank c || c == '\n' then skipGap rest
    else if c == '#' then skipGap (rest.dropWhile isText)
    else c :: rest
termination_by chars.length
decreasing_by
  · simp only [List.length_cons]
    omega
  · simp
  · have := (List.dropWhile_suffix (l := rest) isText).length_le
    simp only [List.length_cons]
    omega

/-- What follows a line whose rest is blank or a comment; the last line needs no line break. -/
def skipLineEnd? (chars : List Char) : Option (List Char) :=
  let rest :=
    match skipBlanks chars with
    | '#' :: rest => rest.dropWhile isText
    | rest => rest
  match rest with
  | [] => some []
  | rest => skipBreak? rest

end Pipework.Toml
