import Mathlib

/-!
# JSON texts

A text is the list of its code points, and `parse` reads the value it stands for. What a string literal
decodes to is a list of code points, too; an escape `\uXXXX` is one of them, also where it is half of a pair.
The members of an object keep their order, and a name that comes twice is there twice. A number keeps its
digits.

The readers take what they read from the front of the text and return the rest. Each has a number of rounds
as its bound, and every round reads a code point.
-/

namespace Lib

namespace Json

/-- Code points. -/
abbrev Text := List Nat

inductive Value where
  | null
  | bool (b : Bool)
  | number (digits : Text)
  | string (s : Text)
  | array (elements : List Value)
  | object (members : List (Text × Value))

def quote : Nat := 34
def plus : Nat := 43
def comma : Nat := 44
def minus : Nat := 45
def point : Nat := 46
def zero : Nat := 48
def colon : Nat := 58
def openBracket : Nat := 91
def backslash : Nat := 92
def closeBracket : Nat := 93
def openBrace : Nat := 123
def closeBrace : Nat := 125

def text (s : String) : Text := s.toList.map Char.toNat

def isBlank (c : Nat) : Bool := c == 32 || c == 9 || c == 10 || c == 13

def skipBlank (t : Text) : Text := t.dropWhile isBlank

/-- The token `c`, after blanks. -/
def expect (c : Nat) (t : Text) : Option Text :=
  match skipBlank t with
  | [] => none
  | d :: rest => if d = c then some rest else none

/-! ## Strings -/

def hexDigit (c : Nat) : Option Nat :=
  if 48 ≤ c ∧ c ≤ 57 then some (c - 48)
  else if 65 ≤ c ∧ c ≤ 70 then some (c - 55)
  else if 97 ≤ c ∧ c ≤ 102 then some (c - 87)
  else none

/-- What follows a backslash and is no `u`. -/
def unescape (c : Nat) : Option Nat :=
  if c = quote ∨ c = backslash ∨ c = 47 then some c
  else if c = 98 then some 8
  else if c = 102 then some 12
  else if c = 110 then some 10
  else if c = 114 then some 13
  else if c = 116 then some 9
  else none

/-- The digits of a `\u`. -/
def readUnicode : Text → Option (Nat × Text)
  | d₃ :: d₂ :: d₁ :: d₀ :: rest => do
    let h₃ ← hexDigit d₃
    let h₂ ← hexDigit d₂
    let h₁ ← hexDigit d₁
    let h₀ ← hexDigit d₀
    some (4096 * h₃ + 256 * h₂ + 16 * h₁ + h₀, rest)
  | _ => none

/-- An escape, after its backslash. -/
def readEscape : Text → Option (Nat × Text)
  | [] => none
  | c :: rest => if c = 117 then readUnicode rest else (unescape c).map fun u => (u, rest)

/-- One character of a string literal. -/
def readChar : Text → Option (Nat × Text)
  | [] => none
  | c :: rest =>
    if c = backslash then readEscape rest
    else if c < 32 then none
    else some (c, rest)

/-- A string literal, after its opening quote. -/
def readString : Nat → Text → Option (Text × Text)
  | 0, _ => none
  | _, [] => none
  | n + 1, c :: rest =>
    if c = quote then some ([], rest)
    else do
      let (u, rest) ← readChar (c :: rest)
      let (s, rest) ← readString n rest
      some (u :: s, rest)

/-! ## Numbers and names -/

def isDigit (c : Nat) : Bool := 48 ≤ c && c ≤ 57

def digits (t : Text) : Option (Text × Text) :=
  if t.takeWhile isDigit = [] then none else some (t.takeWhile isDigit, t.dropWhile isDigit)

/-- An optional `c` in front. -/
def sign (cs : List Nat) : Text → Text × Text
  | [] => ([], [])
  | c :: rest => if c ∈ cs then ([c], rest) else ([], c :: rest)

/-- An optional part of a number: its mark, a sign, and digits. -/
def readPart (marks signs : List Nat) (t : Text) : Option (Text × Text) :=
  match sign marks t with
  | ([], rest) => some ([], rest)
  | (mark, rest) => (digits (sign signs rest).2).map fun r => (mark ++ (sign signs rest).1 ++ r.1, r.2)

def readNumber (t : Text) : Option (Value × Text) := do
  let (int, rest) ← digits (sign [minus] t).2
  if int.head? = some zero ∧ int ≠ [zero] then none
  else
    let (frac, rest) ← readPart [point] [] rest
    let (exp, rest) ← readPart [69, 101] [plus, minus] rest
    some (.number ((sign [minus] t).1 ++ int ++ frac ++ exp), rest)

def readName (name : String) (v : Value) (t : Text) : Option (Value × Text) :=
  if text name <+: t then some (v, t.drop (text name).length) else none

/-! ## Values -/

mutual

def readValue : Nat → Text → Option (Value × Text)
  | 0, _ => none
  | n + 1, t =>
    match skipBlank t with
    | [] => none
    | c :: rest =>
      if c = quote then (readString rest.length rest).map fun r => (.string r.1, r.2)
      else if c = openBrace then
        match expect closeBrace rest with
        | some rest => some (.object [], rest)
        | none => (readMembers n rest).map fun r => (.object r.1, r.2)
      else if c = openBracket then
        match expect closeBracket rest with
        | some rest => some (.array [], rest)
        | none => (readElements n rest).map fun r => (.array r.1, r.2)
      else
        readName "null" .null (c :: rest) <|> readName "true" (.bool true) (c :: rest) <|>
          readName "false" (.bool false) (c :: rest) <|> readNumber (c :: rest)

/-- The members of an object, and its closing brace. -/
def readMembers : Nat → Text → Option (List (Text × Value) × Text)
  | 0, _ => none
  | n + 1, t => do
    let t ← expect quote t
    let (name, t) ← readString t.length t
    let t ← expect colon t
    let (v, t) ← readValue n t
    match expect comma t with
    | some t => (readMembers n t).map fun r => ((name, v) :: r.1, r.2)
    | none => (expect closeBrace t).map fun t => ([(name, v)], t)

/-- The elements of an array, and its closing bracket. -/
def readElements : Nat → Text → Option (List Value × Text)
  | 0, _ => none
  | n + 1, t => do
    let (v, t) ← readValue n t
    match expect comma t with
    | some t => (readElements n t).map fun r => (v :: r.1, r.2)
    | none => (expect closeBracket t).map fun t => ([v], t)

end

def parse (t : Text) : Option Value := do
  let (v, rest) ← readValue t.length t
  if skipBlank rest = [] then some v else none

/-! ## Reading tokens and strings -/

variable {t rest s : Text} {c u : Nat}

theorem skipBlank_token (token : isBlank c = false) : skipBlank (c :: t) = c :: t :=
  List.dropWhile_cons_of_neg (ne_true_of_eq_false token)

theorem skipBlank_blank {b : Nat} (blank : isBlank b = true) : skipBlank (b :: t) = skipBlank t :=
  List.dropWhile_cons_of_pos blank

/-- A token is read behind the blanks. -/
theorem expect_skip {d : Nat} (skipped : skipBlank t = d :: rest) :
    expect c t = if d = c then some rest else none := by
  unfold expect
  rw [skipped]

theorem expect_self (token : isBlank c = false) : expect c (c :: t) = some t :=
  (expect_skip (skipBlank_token token)).trans (if_pos rfl)

theorem expect_quote : expect quote (quote :: t) = some t := expect_self rfl

theorem expect_colon : expect colon (colon :: t) = some t := expect_self rfl

theorem expect_other {d : Nat} (token : isBlank d = false) (other : d ≠ c) : expect c (d :: t) = none :=
  (expect_skip (skipBlank_token token)).trans (if_neg other)

theorem expect_blank {b : Nat} (blank : isBlank b = true) : expect c (b :: t) = expect c t := by
  unfold expect
  rw [skipBlank_blank blank]

theorem expect_length (found : expect c t = some rest) : rest.length < t.length := by
  have shorter : (skipBlank t).length ≤ t.length := (List.dropWhile_sublist _).length_le
  unfold expect at found
  split at found
  · cases found
  · next skipped =>
    rw [skipped, List.length_cons] at shorter
    split at found
    · cases found
      exact shorter
    · cases found

/-- A character that stands for itself. -/
def IsPlain (c : Nat) : Prop := 32 ≤ c ∧ c ≠ quote ∧ c ≠ backslash

instance : DecidablePred IsPlain := fun c => inferInstanceAs (Decidable (32 ≤ c ∧ c ≠ quote ∧ c ≠ backslash))

theorem readString_plain {n : Nat} (plain : ∀ c ∈ s, IsPlain c) (rounds : s.length < n) :
    readString n (s ++ quote :: rest) = some (s, rest) := by
  induction s generalizing n with
  | nil =>
    obtain ⟨n, rfl⟩ := Nat.exists_eq_succ_of_ne_zero (Nat.ne_of_gt rounds)
    simp [readString]
  | cons c s ih =>
    obtain ⟨n, rfl⟩ := Nat.exists_eq_succ_of_ne_zero (Nat.ne_of_gt (Nat.zero_lt_of_lt rounds))
    obtain ⟨printable, no_quote, no_backslash⟩ := plain c List.mem_cons_self
    have later := ih (fun d mem => plain d (List.mem_cons_of_mem _ mem)) (Nat.lt_of_succ_lt_succ rounds)
    have char : readChar (c :: (s ++ quote :: rest)) = some (c, s ++ quote :: rest) := by
      rw [readChar, if_neg no_backslash, if_neg (Nat.not_lt.2 printable)]
    simp [readString, no_quote, char, later]

theorem readUnicode_length (read : readUnicode t = some (u, rest)) : rest.length < t.length := by
  unfold readUnicode at read
  split at read
  · simp only [Option.bind_eq_bind, Option.bind_eq_some_iff, Option.some.injEq, Prod.mk.injEq] at read
    obtain ⟨_, _, _, _, _, _, _, _, _, rfl⟩ := read
    simp only [List.length_cons]
    omega
  · cases read

/-- An escape takes at least one code point behind its backslash. -/
theorem readEscape_length (read : readEscape t = some (u, rest)) : rest.length < t.length := by
  cases t with
  | nil => cases read
  | cons c t =>
    rw [readEscape] at read
    split at read
    · exact Nat.lt_succ_of_lt (readUnicode_length read)
    · obtain ⟨_, _, same⟩ := Option.map_eq_some_iff.1 read
      cases same
      exact Nat.lt_succ_self _

theorem readChar_inv (read : readChar t = some (u, rest)) :
    rest.length + 2 ≤ t.length ∨ t = u :: rest ∧ u ≠ backslash := by
  cases t with
  | nil => cases read
  | cons c t =>
    rw [readChar] at read
    split at read
    · exact .inl (Nat.succ_le_succ (readEscape_length read))
    · next no_backslash =>
      split at read
      · cases read
      · cases read
        exact .inr ⟨rfl, no_backslash⟩

/-- What a literal decodes to is no longer than the literal, and as long only where nothing is escaped. -/
theorem readString_inv {n : Nat} (read : readString n t = some (s, rest)) :
    s.length + rest.length + 1 ≤ t.length ∧
      (s.length + rest.length + 1 = t.length → t = s ++ quote :: rest ∧ quote ∉ s ∧ backslash ∉ s) := by
  induction n generalizing t s with
  | zero => cases read
  | succ n ih =>
    cases t with
    | nil => cases read
    | cons c t =>
      rw [readString] at read
      split at read
      · next closing =>
        cases read
        exact ⟨by simp, fun _ => ⟨by rw [closing, List.nil_append], List.not_mem_nil, List.not_mem_nil⟩⟩
      · next no_quote =>
        simp only [Option.bind_eq_bind, Option.bind_eq_some_iff, Option.some.injEq, Prod.mk.injEq, Prod.exists]
          at read
        obtain ⟨u, later, char, s, _, string, rfl, rfl⟩ := read
        obtain ⟨le, whole⟩ := ih string
        rw [List.length_cons (a := u)]
        obtain longer | ⟨same, no_backslash⟩ := readChar_inv char
        · exact ⟨by omega, fun exact_length => by omega⟩
        · cases same
          rw [List.length_cons]
          refine ⟨by omega, fun exact_length => ?_⟩
          obtain ⟨rfl, quotes, backslashes⟩ := whole (by omega)
          rw [List.mem_cons, List.mem_cons, not_or, not_or]
          exact ⟨rfl, ⟨Ne.symm no_quote, quotes⟩, Ne.symm no_backslash, backslashes⟩

/-- A literal that decodes to what is written, with no less behind it, escapes nothing. -/
theorem readString_verbatim {n : Nat} {tail : Text} (read : readString n (s ++ quote :: tail) = some (s, rest))
    (behind : tail.length ≤ rest.length) : quote ∉ s ∧ backslash ∉ s := by
  obtain ⟨le, whole⟩ := readString_inv read
  rw [List.length_append, List.length_cons] at le whole
  exact (whole (by omega)).2

/-! ## Reading objects -/

theorem readMembers_inv {n : Nat} {ms : List (Text × Value)} (read : readMembers n t = some (ms, rest)) :
    ∃ m t₁ name t₂ t₃ v t₄, expect quote t = some t₁ ∧ readString t₁.length t₁ = some (name, t₂) ∧
      expect colon t₂ = some t₃ ∧ readValue m t₃ = some (v, t₄) ∧
      ((∃ t₅ more, expect comma t₄ = some t₅ ∧ readMembers m t₅ = some (more, rest) ∧ ms = (name, v) :: more) ∨
        expect closeBrace t₄ = some rest ∧ ms = [(name, v)]) := by
  cases n with
  | zero => cases read
  | succ m =>
    simp only [readMembers, Option.bind_eq_bind, Option.bind_eq_some_iff, Prod.exists] at read
    obtain ⟨t₁, opening, name, t₂, string, t₃, middle, v, t₄, value, read⟩ := read
    refine ⟨m, t₁, name, t₂, t₃, v, t₄, opening, string, middle, value, ?_⟩
    split at read
    · next t₅ separated =>
      obtain ⟨⟨more, _⟩, members, same⟩ := Option.map_eq_some_iff.1 read
      cases same
      exact .inl ⟨t₅, more, separated, members, rfl⟩
    · obtain ⟨_, closing, same⟩ := Option.map_eq_some_iff.1 read
      cases same
      exact .inr ⟨closing, rfl⟩

theorem readMembers_ne_nil {n : Nat} {ms : List (Text × Value)} (read : readMembers n t = some (ms, rest)) : ms ≠ [] := by
  obtain ⟨_, _, _, _, _, _, _, _, _, _, _, ⟨_, _, _, _, rfl⟩ | ⟨_, rfl⟩⟩ := readMembers_inv read
  · exact List.cons_ne_nil _ _
  · exact List.cons_ne_nil _ _

theorem readValue_blank {b n : Nat} (blank : isBlank b = true) : readValue n (b :: t) = readValue n t := by
  cases n with
  | zero => rfl
  | succ n => rw [readValue, readValue, skipBlank_blank blank]

theorem readMembers_blank {b n : Nat} (blank : isBlank b = true) : readMembers n (b :: t) = readMembers n t := by
  cases n with
  | zero => rfl
  | succ n => rw [readMembers, readMembers, expect_blank blank]

theorem readValue_string {n : Nat} :
    readValue (n + 1) (quote :: t) = (readString t.length t).map fun r => (.string r.1, r.2) := by
  simp [readValue, skipBlank_token (show isBlank quote = false from rfl)]

theorem readValue_string_inv {n : Nat} {v : Value} (read : readValue n (quote :: t) = some (v, rest)) :
    ∃ s, readString t.length t = some (s, rest) ∧ v = .string s := by
  cases n with
  | zero => cases read
  | succ n =>
    rw [readValue_string] at read
    obtain ⟨⟨s, _⟩, string, same⟩ := Option.map_eq_some_iff.1 read
    cases same
    exact ⟨s, string, rfl⟩

theorem readValue_object {n : Nat} (member : expect closeBrace t = none) :
    readValue (n + 1) (openBrace :: t) = (readMembers n t).map fun r => (.object r.1, r.2) := by
  simp [readValue, skipBlank_token (show isBlank openBrace = false from rfl), show openBrace ≠ quote from by decide,
    member]

theorem readValue_object_inv {n : Nat} {v : Value} (member : expect closeBrace t = none)
    (read : readValue n (openBrace :: t) = some (v, rest)) :
    ∃ m ms, readMembers m t = some (ms, rest) ∧ v = .object ms := by
  cases n with
  | zero => cases read
  | succ n =>
    rw [readValue_object member] at read
    obtain ⟨⟨ms, _⟩, members, same⟩ := Option.map_eq_some_iff.1 read
    cases same
    exact ⟨n, ms, members, rfl⟩

/-! A member whose name is written without escapes. -/

section Member

variable {name more t₁ t₂ : Text} {v : Value} {n : Nat}

theorem readString_name (plain : ∀ c ∈ name, IsPlain c) :
    readString (name ++ quote :: t).length (name ++ quote :: t) = some (name, t) := by
  apply readString_plain plain
  rw [List.length_append, List.length_cons]
  omega

theorem readMembers_last (plain : ∀ c ∈ name, IsPlain c) (value : readValue n t = some (v, t₁))
    (single : expect comma t₁ = none) (closing : expect closeBrace t₁ = some rest) :
    readMembers (n + 1) (quote :: (name ++ quote :: colon :: t)) = some ([(name, v)], rest) := by
  simp only [readMembers, expect_quote, Option.bind_eq_bind, Option.bind_some, readString_name plain, expect_colon,
    value, single, closing, Option.map_some]

theorem readMembers_more {ms : List (Text × Value)} (plain : ∀ c ∈ name, IsPlain c)
    (value : readValue n t = some (v, t₁)) (separated : expect comma t₁ = some t₂)
    (members : readMembers n t₂ = some (ms, rest)) :
    readMembers (n + 1) (quote :: (name ++ quote :: colon :: t)) = some ((name, v) :: ms, rest) := by
  simp only [readMembers, expect_quote, Option.bind_eq_bind, Option.bind_some, readString_name plain, expect_colon,
    value, separated, members, Option.map_some]

theorem readMembers_name_inv {ms : List (Text × Value)} (plain : ∀ c ∈ name, IsPlain c)
    (read : readMembers n (quote :: (name ++ quote :: colon :: t)) = some (ms, rest)) :
    ∃ m v t₁, readValue m t = some (v, t₁) ∧
      ((∃ t₂ more, expect comma t₁ = some t₂ ∧ readMembers m t₂ = some (more, rest) ∧ ms = (name, v) :: more) ∨
        expect closeBrace t₁ = some rest ∧ ms = [(name, v)]) := by
  obtain ⟨m, t₁, _, t₂, t₃, v, t₄, opening, string, middle, value, next⟩ := readMembers_inv read
  rw [expect_quote] at opening
  cases opening
  rw [readString_name plain] at string
  cases string
  rw [expect_colon] at middle
  cases middle
  exact ⟨m, v, t₄, value, next⟩

/-- An object with a single member. -/
theorem readMembers_single_inv {member : Text × Value} (plain : ∀ c ∈ name, IsPlain c)
    (read : readMembers n (quote :: (name ++ quote :: colon :: t)) = some ([member], rest)) :
    ∃ m t₁, readValue m t = some (member.2, t₁) ∧ expect closeBrace t₁ = some rest := by
  obtain ⟨m, v, t₁, value, ⟨t₂, more, _, members, same⟩ | ⟨closing, same⟩⟩ := readMembers_name_inv plain read
  · cases same
    exact absurd rfl (readMembers_ne_nil members)
  · cases same
    exact ⟨m, t₁, value, closing⟩

end Member

end Json

end Lib
