/-! The smallest pieces of a TOML document. A reader takes its piece off the front of the text and
gives what the piece means together with the text after it. -/
namespace RecordLog.Toml

abbrev Reader (α : Type) := List Char → Option (α × List Char)

def isBlank (c : Char) : Bool := c = ' ' || c = '\t'

/-- What may stand in a comment: no control character but the tab. -/
def isPlain (c : Char) : Bool := c = '\t' || (' ' ≤ c && c ≠ '\x7f')

def isBareKey (c : Char) : Bool := c.isAlphanum || c = '_' || c = '-'

def isHexDigit (c : Char) : Bool := c.isDigit || ('a' ≤ c && c ≤ 'f') || ('A' ≤ c && c ≤ 'F')

def hexValue (c : Char) : Nat :=
  if c.isDigit then c.toNat - '0'.toNat
  else if 'a' ≤ c then c.toNat - 'a'.toNat + 10
  else c.toNat - 'A'.toNat + 10

def skipBlanks (cs : List Char) : List Char := cs.dropWhile isBlank

/-- A line feed, with or without a carriage return before it. -/
def newline? : List Char → Option (List Char)
  | '\n' :: cs => some cs
  | '\r' :: '\n' :: cs => some cs
  | _ => none

theorem newline?_length {cs rest : List Char} (h : newline? cs = some rest) :
    rest.length < cs.length := by
  unfold newline? at h
  split at h
  · simp only [Option.some.injEq] at h
    subst h
    simp
  · simp only [Option.some.injEq] at h
    subst h
    simp only [List.length_cons]
    omega
  · simp at h

theorem length_dropWhile_le (p : Char → Bool) (cs : List Char) :
    (cs.dropWhile p).length ≤ cs.length := (List.dropWhile_sublist p).length_le

/-- A comment, if there is one, up to the end of its line. -/
def skipComment : List Char → List Char
  | '#' :: cs => cs.dropWhile isPlain
  | cs => cs

theorem skipComment_length (cs : List Char) : (skipComment cs).length ≤ cs.length := by
  unfold skipComment
  split
  · exact Nat.le_trans (length_dropWhile_le ..) (by simp)
  · exact Nat.le_refl _

/-- What may follow the last thing on a line. -/
def endLine? (cs : List Char) : Option (List Char) :=
  match skipComment (skipBlanks cs) with
  | [] => some []
  | cs => newline? cs

/-- Blanks, comments and line ends between the items of an array. -/
def skipFiller (cs : List Char) : List Char :=
  match h : newline? (skipComment (skipBlanks cs)) with
  | none => skipComment (skipBlanks cs)
  | some rest =>
    have : rest.length < cs.length := by
      have h1 := newline?_length h
      have h2 := skipComment_length (skipBlanks cs)
      have h3 := length_dropWhile_le isBlank cs
      simp only [skipBlanks] at h1 h2
      omega
    skipFiller rest
  termination_by cs.length

/-- Blanks and line ends. -/
def skipLines (cs : List Char) : List Char :=
  match h : newline? (skipBlanks cs) with
  | none => skipBlanks cs
  | some rest =>
    have : rest.length < cs.length := by
      have h1 := newline?_length h
      have h3 := length_dropWhile_le isBlank cs
      simp only [skipBlanks] at h1
      omega
    skipLines rest
  termination_by cs.length

theorem skipLines_length (cs : List Char) : (skipLines cs).length ≤ cs.length := by
  fun_induction skipLines cs with
  | case1 cs h => exact length_dropWhile_le isBlank cs
  | case2 cs rest h this ih => omega

/-- The character named by `n` hexadecimal digits. -/
def hexEscape (n : Nat) (cs : List Char) : Option (Char × List Char) :=
  let digits := cs.take n
  if digits.length = n ∧ digits.all isHexDigit then
    let point := digits.foldl (fun v c => 16 * v + hexValue c) 0
    if point.isValidChar then some (Char.ofNat point, cs.drop n) else none
  else none

/-- What follows a backslash. -/
def escape : Reader Char
  | 'b' :: cs => some ('\x08', cs)
  | 'f' :: cs => some ('\x0c', cs)
  | 'n' :: cs => some ('\n', cs)
  | 'r' :: cs => some ('\r', cs)
  | 't' :: cs => some ('\t', cs)
  | '"' :: cs => some ('"', cs)
  | '\\' :: cs => some ('\\', cs)
  | 'u' :: cs => hexEscape 4 cs
  | 'U' :: cs => hexEscape 8 cs
  | _ => none

theorem hexEscape_length {n : Nat} {cs rest : List Char} {c : Char}
    (h : hexEscape n cs = some (c, rest)) : rest.length ≤ cs.length := by
  unfold hexEscape at h
  simp only at h
  split at h
  · split at h
    · simp only [Option.some.injEq, Prod.mk.injEq] at h
      rw [← h.2]
      simp
    · simp at h
  · simp at h

theorem escape_length {cs rest : List Char} {c : Char} (h : escape cs = some (c, rest)) :
    rest.length < cs.length := by
  unfold escape at h
  split at h
  all_goals first
    | exact Nat.lt_succ_of_le (hexEscape_length h)
    | (simp only [Option.some.injEq, Prod.mk.injEq] at h
       exact h.2 ▸ Nat.lt_succ_self _)
    | cases h

/-- The rest of a one-line string in double quotes. -/
def basicString (found : List Char) : List Char → Option (String × List Char)
  | '"' :: cs => some (String.ofList found.reverse, cs)
  | '\\' :: cs =>
    match h : escape cs with
    | none => none
    | some (c, rest) =>
      have := escape_length h
      basicString (c :: found) rest
  | c :: cs => if isPlain c then basicString (c :: found) cs else none
  | [] => none
  termination_by cs => cs.length
  decreasing_by all_goals simp only [List.length_cons]; omega

/-- The rest of a one-line string in single quotes. -/
def literalString (cs : List Char) : Option (String × List Char) :=
  let body := cs.takeWhile fun c => isPlain c && c ≠ '\''
  match cs.drop body.length with
  | '\'' :: rest => some (String.ofList body, rest)
  | _ => none

/-- A backslash at the end of a line swallows the line end and all blank space after it. -/
def foldedLine? (cs : List Char) : Option (List Char) :=
  (newline? (skipBlanks cs)).map skipLines

/-- Closing quotes: three, after at most two that belong to the text. -/
def closing? (quote : Char) (cs : List Char) : Option (Nat × List Char) :=
  let run := (cs.takeWhile (· = quote)).length
  if 3 ≤ run then some (min (run - 3) 2, cs.drop (min run 5)) else none

theorem foldedLine?_length {cs rest : List Char} (h : foldedLine? cs = some rest) :
    rest.length < cs.length := by
  simp only [foldedLine?, Option.map_eq_some_iff] at h
  obtain ⟨mid, hmid, rfl⟩ := h
  have h1 := newline?_length hmid
  have h2 := length_dropWhile_le isBlank cs
  have h3 := skipLines_length mid
  simp only [skipBlanks] at h1
  omega

/-- The rest of a string between triple quotes, in which line ends are kept as line feeds and,
with `escapes`, a backslash has its meaning. -/
def longString (quote : Char) (escapes : Bool) (found : List Char) (cs : List Char) :
    Option (String × List Char) :=
  match closing? quote cs with
  | some (extra, rest) =>
    some (String.ofList (List.replicate extra quote ++ found).reverse, rest)
  | none =>
    match hn : newline? cs with
    | some rest =>
      have := newline?_length hn
      longString quote escapes ('\n' :: found) rest
    | none =>
      match cs with
      | [] => none
      | c :: cs =>
        if c = '\\' ∧ escapes then
          match hf : foldedLine? cs with
          | some rest =>
            have := foldedLine?_length hf
            longString quote escapes found rest
          | none =>
            match he : escape cs with
            | none => none
            | some (e, rest) =>
              have := escape_length he
              longString quote escapes (e :: found) rest
        else if isPlain c then longString quote escapes (c :: found) cs
        else none
  termination_by cs.length
  decreasing_by all_goals first | assumption | (simp only [List.length_cons]; omega)

/-- A line end right after the opening quotes is not part of the text. -/
def afterOpening (cs : List Char) : List Char := (newline? cs).getD cs

/-- A string of any of the four sorts. -/
def string : Reader String
  | '"' :: '"' :: '"' :: cs => longString '"' true [] (afterOpening cs)
  | '"' :: cs => basicString [] cs
  | '\'' :: '\'' :: '\'' :: cs => longString '\'' false [] (afterOpening cs)
  | '\'' :: cs => literalString cs
  | _ => none

/-- One part of a key: bare, or quoted on one line. -/
def keyPart : Reader String
  | '"' :: cs => basicString [] cs
  | '\'' :: cs => literalString cs
  | cs =>
    match cs.takeWhile isBareKey with
    | [] => none
    | name => some (String.ofList name, cs.dropWhile isBareKey)

/-- Key parts in order, after those already found, with blanks around the dots. -/
def keyFrom (found : List String) (cs : List Char) : Option (List String × List Char) :=
  match keyPart (skipBlanks cs) with
  | none => none
  | some (part, rest) =>
    match skipBlanks rest with
    | '.' :: more =>
      if more.length < cs.length then keyFrom (part :: found) more else none
    | rest => some ((part :: found).reverse, rest)
  termination_by cs.length

/-- The most parts of a key. -/
def maxKeyParts : Nat := 79

/-- A key, simple or dotted. -/
def key (cs : List Char) : Option (List String × List Char) :=
  match keyFrom [] cs with
  | some (parts, rest) => if parts.length ≤ maxKeyParts then some (parts, rest) else none
  | none => none

end RecordLog.Toml
