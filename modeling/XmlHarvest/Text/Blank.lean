/-!
# White space

Two classes of blank characters meet in this library. Values are trimmed and split at *blanks*,
the characters with the Unicode property `White_Space`; markup, expressions and configuration
files are laid out with *ASCII spacing* alone: space, tab, carriage return and line feed.

## Main definitions

* `Text.isBlank`: the Unicode class.
* `Text.isSpacing`: the ASCII class.
* `Text.trim`: a text without the blanks around it.
* `Text.words`: the maximal runs of characters that are not blank.
* `Text.utf8Length`: the length of a text in bytes, the unit of every reported position.
* `Text.splitBytes`: the parts of a text before and behind a position.
-/

namespace XmlHarvest.Text

/-- The characters with the Unicode property `White_Space`. -/
def isBlank (c : Char) : Bool :=
  let n := c.toNat
  (0x9 ≤ n && n ≤ 0xD) || n == 0x20 || n == 0x85 || n == 0xA0 || n == 0x1680 ||
    (0x2000 ≤ n && n ≤ 0x200A) || n == 0x2028 || n == 0x2029 || n == 0x202F || n == 0x205F ||
    n == 0x3000

/-- Space, tab, carriage return and line feed. -/
def isSpacing (c : Char) : Bool :=
  c == ' ' || c == '\t' || c == '\r' || c == '\n'

/-! ## Trimming -/

/-- A text without the blanks it starts with. -/
def trimStart (s : List Char) : List Char :=
  s.dropWhile isBlank

/-- A text without the characters of the class `p` that it ends with. -/
def trimEndWhile (p : Char → Bool) : List Char → List Char
  | [] => []
  | c :: r =>
    match trimEndWhile p r with
    | [] => if p c then [] else [c]
    | kept => c :: kept

/-- A text without the blanks around it. -/
def trimChars (s : List Char) : List Char :=
  trimEndWhile isBlank (trimStart s)

/-- A string without the blanks around it. -/
def trim (s : String) : String :=
  String.ofList (trimChars s.toList)

/-! ## Words -/

/-- The maximal runs of characters that are not blank, in order. -/
def words : List Char → List (List Char)
  | [] => []
  | [c] => if isBlank c then [] else [[c]]
  | c :: d :: r =>
    if isBlank c then words (d :: r)
    else if isBlank d then [c] :: words (d :: r)
    else
      match words (d :: r) with
      | [] => [[c]]
      | w :: ws => (c :: w) :: ws

/-- The words of a text with one space between neighbours. -/
def normalizeSpace (s : List Char) : List Char :=
  List.intercalate [' '] (words s)

/-! ## Measure -/

/-- The number of bytes of a text in UTF-8. -/
def utf8Length : List Char → Nat
  | [] => 0
  | c :: r => c.utf8Size + utf8Length r

/-- The parts of a text before and behind its first `n` bytes. A character that lies across that
point belongs to the second part. -/
def splitBytes (n : Nat) : List Char → List Char × List Char
  | [] => ([], [])
  | c :: r =>
    if c.utf8Size ≤ n then
      let (before, rest) := splitBytes (n - c.utf8Size) r
      (c :: before, rest)
    else ([], c :: r)

@[simp] theorem utf8Length_append (s t : List Char) :
    utf8Length (s ++ t) = utf8Length s + utf8Length t := by
  induction s with
  | nil => simp [utf8Length]
  | cons c r ih => simp [utf8Length, ih, Nat.add_assoc]

/-- A text is cut behind its first part if as many bytes are asked for. -/
@[simp] theorem splitBytes_append (s t : List Char) :
    splitBytes (utf8Length s) (s ++ t) = (s, t) := by
  induction s with
  | nil =>
    cases t with
    | nil => rfl
    | cons c r =>
      have hsize : ¬c.utf8Size ≤ 0 := Nat.not_le.2 c.utf8Size_pos
      simp only [utf8Length, List.nil_append, splitBytes, if_neg hsize]
  | cons c r ih =>
    have hsize : c.utf8Size ≤ c.utf8Size + utf8Length r := Nat.le_add_right _ _
    simp only [utf8Length, List.cons_append, splitBytes, if_pos hsize, Nat.add_sub_cancel_left, ih]

end XmlHarvest.Text
