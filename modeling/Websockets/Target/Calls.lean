import Websockets.Target.Query
import Websockets.Lib.Traced

/-!
# The library calls of `ParseTarget`

`UrlDecode` and `ParseTarget` once more, each call of the standard library that has a precondition written out as a
call: subscripts, `substr`, `std::isxdigit` and `std::stoi`. A `char` is signed, so a byte above `0x7f` reaches
`std::isxdigit` as a negative `int`; only `EOF` among these is in its domain. What it answers outside its domain is
a parameter.
-/

namespace Websockets

open Lib

namespace Calls

/-- A call with a precondition, and the arguments the precondition is about. -/
inductive LibraryCall where
  | subscript (size pos : Nat)
  | substr (size pos : Nat)
  | isxdigit (arg : Int)
  | stoi (arg : Bytes)
  deriving DecidableEq

/-- `EOF`, or a value of `unsigned char`. -/
def InDomain (arg : Int) : Prop := arg = -1 ∨ 0 ≤ arg ∧ arg ≤ 255

instance (arg : Int) : Decidable (InDomain arg) := inferInstanceAs (Decidable (_ ∨ _))

/-- The precondition of a call, given the domain of `std::isxdigit`. `std::stoi` gets a complete hexadecimal
number that fits an `int`. -/
def LibraryCall.Ok (domain : Int → Prop) : LibraryCall → Prop
  | .subscript size pos => pos < size
  | .substr size pos => pos ≤ size
  | .isxdigit arg => domain arg
  | .stoi arg => arg ≠ [] ∧ (∀ c ∈ arg, Websockets.isxdigit c = true) ∧ stoi16 arg < 2 ^ 31

instance (domain : Int → Prop) [DecidablePred domain] (e : LibraryCall) : Decidable (e.Ok domain) :=
  match e with
  | .subscript size pos => inferInstanceAs (Decidable (pos < size))
  | .substr size pos => inferInstanceAs (Decidable (pos ≤ size))
  | .isxdigit arg => inferInstanceAs (Decidable (domain arg))
  | .stoi arg =>
    inferInstanceAs (Decidable (arg ≠ [] ∧ (∀ c ∈ arg, Websockets.isxdigit c = true) ∧ stoi16 arg < 2 ^ 31))

/-- The `int` that a `char` becomes. -/
def toInt (c : UInt8) : Int := if c < 128 then c.toNat else c.toNat - 256

/-- `std::isxdigit` as a function of its argument. -/
def xdigit (undefined : Int → Bool) (arg : Int) : Bool :=
  if 0 ≤ arg ∧ arg ≤ 255 then Websockets.isxdigit arg.toNat.toUInt8
  else if arg = -1 then false
  else undefined arg

/-- A computation with the library calls it makes. -/
abbrev Calling := Traced LibraryCall

def subscript (s : Bytes) (pos : Nat) : Calling UInt8 := .call (.subscript s.length pos) (s[pos]?.getD 0)

def substr (s : Bytes) (pos : Nat) (count : Option Nat) : Calling Bytes :=
  .call (.substr s.length pos) (Websockets.substr s pos count)

def stoi (s : Bytes) : Calling Nat := .call (.stoi s) (stoi16 s)

section Source

variable (hex : Int → Bool)

def isxdigit (c : UInt8) : Calling Bool := .call (.isxdigit (toInt c)) (hex (toInt c))

/-- The condition of the first branch of `UrlDecode`, from the left. -/
def escapeAt (input : Bytes) (i : Nat) : Calling Bool := do
  let c ← subscript input i
  if c = percent ∧ i + 2 < input.length then
    let hi ← subscript input (i + 1)
    if ← isxdigit hex hi then
      let lo ← subscript input (i + 2)
      isxdigit hex lo
    else pure false
  else pure false

/-- The loop of `UrlDecode` from position `i`. -/
def urlDecodeFrom (input : Bytes) : Nat → Nat → Bytes → Calling Bytes
  | 0, _, out => pure out
  | left + 1, i, out =>
    if i < input.length then do
      if ← escapeAt hex input i then
        let digits ← substr input (i + 1) (some 2)
        let code ← stoi digits
        urlDecodeFrom input left (i + 3) (out ++ [code.toUInt8])
      else
        let c ← subscript input i
        if c = plus then urlDecodeFrom input left (i + 1) (out ++ [space])
        else
          let c ← subscript input i
          urlDecodeFrom input left (i + 1) (out ++ [c])
    else pure out

def urlDecode (input : Bytes) : Calling Bytes := urlDecodeFrom hex input input.length 0 []

/-- One piece of the query is entered into the parameters. The right side of the assignment is evaluated first. -/
def parsePair (pair : Bytes) (parameters : HttpQueryParameters) : Calling HttpQueryParameters :=
  if pair.isEmpty then pure parameters
  else match find pair equals 0 with
    | none => do
      let key ← urlDecode hex pair
      pure (parameters.insert key [])
    | some eq => do
      let rawValue ← substr pair (eq + 1) none
      let value ← urlDecode hex rawValue
      let rawKey ← substr pair 0 (some eq)
      let key ← urlDecode hex rawKey
      pure (parameters.insert key value)

/-- The loop of `ParseTarget` from position `start`. -/
def parseQuery (query : Bytes) : Nat → Nat → HttpQueryParameters → Calling HttpQueryParameters
  | 0, _, parameters => pure parameters
  | left + 1, start, parameters =>
    if start ≤ query.length then do
      let stop := (find query ampersand start).getD query.length
      let pair ← substr query start (some (stop - start))
      let entered ← parsePair hex pair parameters
      parseQuery query left (stop + 1) entered
    else pure parameters

def parseTarget (target : Bytes) : Calling (Bytes × HttpQueryParameters) :=
  match find target question 0 with
  | none => do
    let path ← substr target 0 none
    pure (path, ∅)
  | some queryPos => do
    let path ← substr target 0 (some queryPos)
    let query ← substr target (queryPos + 1) none
    let parameters ← parseQuery hex query (query.length + 1) 0 ∅
    pure (path, parameters)

end Source

/-- A piece of the query up to its first `=`, and behind it. -/
def cut (piece : Bytes) : List Bytes := [piece.takeWhile (· != equals), (piece.dropWhile (· != equals)).tail]

/-- The keys and the values of a query as they are given to the decoder. -/
def parts (target : Bytes) : List Bytes := ((queryOf target).splitOn ampersand).flatMap cut

/-- If an escape could begin here, its first digit is in the domain, and so is the second one if the first is a
digit. -/
def AsksFirst (domain : Int → Prop) (s : Bytes) : Prop :=
  ∀ hi lo rest, s = percent :: hi :: lo :: rest →
    domain (toInt hi) ∧ (Websockets.isxdigit hi = true → domain (toInt lo))

/-- The same wherever an escape could begin. -/
def Asks (domain : Int → Prop) (part : Bytes) : Prop := ∀ s, s <:+ part → AsksFirst domain s

variable {hex : Int → Bool} {domain : Int → Prop} {input s rest out query piece : Bytes} {c hi lo : UInt8} {i left start : Nat}
  {parameters : HttpQueryParameters}

/-! ## Asking for digits -/

theorem asksFirst_nil : AsksFirst domain [] := by
  intro hi lo rest begins
  cases begins

theorem asks_cons : Asks domain (c :: s) ↔ AsksFirst domain (c :: s) ∧ Asks domain s := by
  constructor
  · intro asks
    exact ⟨asks _ (List.suffix_refl _), fun t suffix => asks t (suffix.trans (List.suffix_cons c s))⟩
  · rintro ⟨first, others⟩ t suffix
    rcases List.suffix_cons_iff.1 suffix with rfl | suffix
    · exact first
    · exact others t suffix

theorem asks_nil : Asks domain [] := by
  intro t suffix
  rw [List.suffix_nil.1 suffix]
  exact asksFirst_nil

theorem cut_nil : ∀ part ∈ cut [], Asks domain part := by
  intro part mem
  obtain rfl : part = [] := by simpa [cut] using mem
  exact asks_nil

/-- An empty query has one piece, the empty one. -/
theorem asks_empty : ∀ piece ∈ ([] : Bytes).splitOn ampersand, ∀ part ∈ cut piece, Asks domain part := by
  have pieces : ([] : Bytes).splitOn ampersand = [[]] := rfl
  rw [pieces, List.forall_mem_singleton]
  exact cut_nil

theorem asksFirst_of_ne (other : c ≠ percent) : AsksFirst domain (c :: s) := by
  intro hi lo rest begins
  cases begins
  exact absurd rfl other

/-- A digit is not the sign of an escape. -/
theorem ne_percent (digit : Websockets.isxdigit c = true) : c ≠ percent := by
  rintro rfl
  cases digit

/-- The digits of an escape begin none. -/
theorem asks_escape (first : Websockets.isxdigit hi = true) (second : Websockets.isxdigit lo = true) :
    Asks domain (percent :: hi :: lo :: rest) ↔ AsksFirst domain (percent :: hi :: lo :: rest) ∧ Asks domain rest := by
  rw [asks_cons, asks_cons, asks_cons]
  constructor
  · rintro ⟨here, -, -, later⟩
    exact ⟨here, later⟩
  · rintro ⟨here, later⟩
    exact ⟨here, asksFirst_of_ne (ne_percent first), asksFirst_of_ne (ne_percent second), later⟩

/-! ## `UrlDecode` -/

theorem hexValue_lt (digit : Websockets.isxdigit c = true) : hexValue c < 16 := by
  simp only [Websockets.isxdigit, Bool.or_eq_true, Bool.and_eq_true, decide_eq_true_eq, UInt8.le_iff_toNat_le,
    UInt8.reduceToNat] at digit
  simp only [hexValue, UInt8.le_iff_toNat_le, UInt8.reduceToNat]
  split
  · omega
  · split <;> omega

/-- Two digits are a complete number that fits. -/
theorem stoi_ok (first : Websockets.isxdigit hi = true) (second : Websockets.isxdigit lo = true) :
    (LibraryCall.stoi [hi, lo]).Ok domain := by
  have high := hexValue_lt first
  have low := hexValue_lt second
  refine ⟨List.cons_ne_nil _ _, ?_, ?_⟩
  · intro c mem
    simp only [List.mem_cons, List.not_mem_nil, or_false] at mem
    obtain rfl | rfl := mem
    · exact first
    · exact second
  · simp only [stoi16, List.foldl_cons, List.foldl_nil]
    omega

open Traced

theorem subscript_returns (inside : i < input.length) :
    Returns (LibraryCall.Ok domain) (subscript input i) True input[i] := by
  rw [subscript, List.getElem?_eq_getElem inside]
  exact Returns.call.iff (iff_true_intro inside)

theorem substr_returns {pos : Nat} {count : Option Nat} (inside : pos ≤ s.length) :
    Returns (LibraryCall.Ok domain) (substr s pos count) True (Websockets.substr s pos count) :=
  Returns.call.iff (iff_true_intro inside)

theorem stoi_returns (first : Websockets.isxdigit hi = true) (second : Websockets.isxdigit lo = true) :
    Returns (LibraryCall.Ok domain) (stoi [hi, lo]) True (stoi16 [hi, lo]) :=
  Returns.call.iff (iff_true_intro (stoi_ok first second))

section Loops

variable (agrees : ∀ c, domain (toInt c) → hex (toInt c) = Websockets.isxdigit c)

include agrees

theorem isxdigit_returns :
    Returns (LibraryCall.Ok domain) (isxdigit hex c) (domain (toInt c)) (Websockets.isxdigit c) :=
  ⟨Returns.call.meets, agrees c⟩

/-- **The first condition of the loop.** -/
theorem escapeAt_returns (inside : i < input.length) :
    Returns (LibraryCall.Ok domain) (escapeAt hex input i) (AsksFirst domain (input.drop i))
      (decide (input[i]? = some percent ∧ i + 2 < input.length ∧ input[i + 1]?.any Websockets.isxdigit = true ∧
        input[i + 2]?.any Websockets.isxdigit = true)) := by
  rw [escapeAt]
  refine (subscript_returns inside).then ?_
  by_cases begins : input[i] = percent ∧ i + 2 < input.length
  · rw [if_pos begins]
    obtain ⟨sign, bound⟩ := begins
    have asks : AsksFirst domain (input.drop i) ↔ domain (toInt input[i + 1]) ∧
        (Websockets.isxdigit input[i + 1] = true → domain (toInt input[i + 2])) := by
      rw [drop_three bound, sign]
      constructor
      · exact fun first => first _ _ _ rfl
      · intro both hi lo rest is
        cases is
        exact both
    have found : decide (input[i]? = some percent ∧ i + 2 < input.length ∧
        input[i + 1]?.any Websockets.isxdigit = true ∧ input[i + 2]?.any Websockets.isxdigit = true) =
          (Websockets.isxdigit input[i + 1] && Websockets.isxdigit input[i + 2]) := by
      simp [List.getElem?_eq_getElem inside, List.getElem?_eq_getElem (show i + 1 < input.length by omega), sign, bound]
    rw [found]
    refine (subscript_returns (by omega)).then (((isxdigit_returns agrees).bind fun _ => ?_).iff asks.symm)
    -- the second byte is looked at only behind a digit
    by_cases digit : Websockets.isxdigit input[i + 1] = true
    · rw [if_pos digit, digit, Bool.true_and]
      exact (subscript_returns bound).then ((isxdigit_returns agrees).iff ⟨fun ok _ => ok, fun ok => ok rfl⟩)
    · rw [if_neg digit, Bool.eq_false_iff.2 digit, Bool.false_and]
      exact Returns.pure.iff (iff_of_true trivial fun is => absurd is (by decide))
  · have plain : ¬ (input[i]? = some percent ∧ i + 2 < input.length ∧
        input[i + 1]?.any Websockets.isxdigit = true ∧ input[i + 2]?.any Websockets.isxdigit = true) := by
      rintro ⟨here, bound, -⟩
      rw [List.getElem?_eq_getElem inside] at here
      exact begins ⟨Option.some.inj here, bound⟩
    have quiet : AsksFirst domain (input.drop i) := by
      intro hi lo rest is
      have long := congrArg List.length is
      rw [List.length_drop, List.length_cons, List.length_cons, List.length_cons] at long
      rw [List.drop_eq_getElem_cons inside] at is
      exact absurd ⟨(List.cons.inj is).1, by omega⟩ begins
    rw [if_neg begins, decide_eq_false plain]
    exact Returns.pure.iff (iff_of_true trivial quiet)

/-- **The loop of `UrlDecode`.** -/
theorem urlDecodeFrom_returns (enough : input.length ≤ i + left) :
    Returns (LibraryCall.Ok domain) (urlDecodeFrom hex input left i out) (Asks domain (input.drop i))
      (Websockets.urlDecodeFrom input left i out) := by
  induction left generalizing i out with
  | zero =>
    rw [urlDecodeFrom, List.drop_eq_nil_of_le (by omega)]
    exact Returns.pure.iff (iff_of_true trivial asks_nil)
  | succ left ih =>
    rw [urlDecodeFrom, Websockets.urlDecodeFrom]
    by_cases inside : i < input.length
    · rw [if_pos inside, if_pos inside]
      by_cases escape : input[i]? = some percent ∧ i + 2 < input.length ∧
          input[i + 1]?.any Websockets.isxdigit = true ∧ input[i + 2]?.any Websockets.isxdigit = true
      · obtain ⟨hi, lo, rest, split, first, second⟩ := escape_iff.1 escape
        have asks : AsksFirst domain (input.drop i) ∧ Asks domain (input.drop (i + 3)) ↔ Asks domain (input.drop i) := by
          rw [drop_escape split, split]
          exact (asks_escape first second).symm
        refine ((escapeAt_returns agrees inside).bind fun _ => ?_).iff asks
        rw [if_pos (decide_eq_true escape), if_pos escape]
        refine (substr_returns (by omega)).then ?_
        rw [substr_escape split]
        exact (stoi_returns first second).then (ih (by omega))
      · have asks : AsksFirst domain (input.drop i) ∧ Asks domain (input.drop (i + 1)) ↔ Asks domain (input.drop i) := by
          rw [List.drop_eq_getElem_cons inside]
          exact asks_cons.symm
        refine ((escapeAt_returns agrees inside).bind fun _ => ?_).iff asks
        rw [if_neg (by rw [decide_eq_false escape]; decide), if_neg escape, List.getElem?_eq_getElem inside]
        refine (subscript_returns inside).then ?_
        by_cases isPlus : input[i] = plus
        · rw [if_pos isPlus, if_pos (congrArg some isPlus)]
          exact ih (by omega)
        · rw [if_neg isPlus, if_neg fun is => isPlus (Option.some.inj is)]
          exact (subscript_returns inside).then (ih (by omega))
    · rw [if_neg inside, if_neg inside, List.drop_eq_nil_of_le (by omega)]
      exact Returns.pure.iff (iff_of_true trivial asks_nil)

theorem urlDecode_returns (input : Bytes) :
    Returns (LibraryCall.Ok domain) (urlDecode hex input) (Asks domain input) (Websockets.urlDecode input) :=
  urlDecodeFrom_returns agrees (Nat.le_add_left _ _)

/-! ## `ParseTarget` -/

/-- Both parts of a piece ask for nothing outside the domain. -/
theorem parsePair_returns (piece : Bytes) (parameters : HttpQueryParameters) :
    Returns (LibraryCall.Ok domain) (parsePair hex piece parameters) (∀ part ∈ cut piece, Asks domain part)
      (Websockets.parsePair piece parameters) := by
  rw [parsePair, Websockets.parsePair]
  by_cases empty : piece.isEmpty = true
  · obtain rfl := List.isEmpty_iff.1 empty
    exact Returns.pure.iff (iff_of_true trivial cut_nil)
  · rw [if_neg empty, if_neg empty]
    by_cases separated : equals ∈ piece
    · obtain ⟨key, value, split, free⟩ := List.eq_append_cons_of_mem separated
      have asks : Asks domain value ∧ Asks domain key ↔ ∀ part ∈ cut piece, Asks domain part := by
        rw [cut, split, takeWhile_before free, dropWhile_before free, List.tail_cons]
        simp [and_comm]
      have long : key.length + 1 ≤ piece.length := by
        rw [split, List.length_append, List.length_cons]
        omega
      simp only [find_first split free, substr_before split, substr_behind split]
      refine Returns.iff ?_ asks
      refine (substr_returns long).then ?_
      rw [substr_behind split]
      refine (urlDecode_returns agrees value).bind fun _ => ?_
      refine (substr_returns (Nat.zero_le _)).then ?_
      rw [substr_before split]
      exact (urlDecode_returns agrees key).map
    · have asks : Asks domain piece ↔ ∀ part ∈ cut piece, Asks domain part := by
        rw [cut, takeWhile_free separated, dropWhile_free separated, List.tail_nil]
        simp [asks_nil]
      simp only [find_missing separated]
      exact (urlDecode_returns agrees piece).map.iff asks

/-- **The loop of `ParseTarget`.** -/
theorem parseQuery_returns (enough : query.length < start + left) :
    Returns (LibraryCall.Ok domain) (parseQuery hex query left start parameters)
      (∀ piece ∈ (query.drop start).splitOn ampersand, ∀ part ∈ cut piece, Asks domain part)
      (Websockets.parseQuery query left start parameters) := by
  induction left generalizing start parameters with
  | zero =>
    rw [parseQuery, List.drop_eq_nil_of_le (by omega)]
    exact Returns.pure.iff (iff_of_true trivial asks_empty)
  | succ left ih =>
    rw [parseQuery, Websockets.parseQuery]
    by_cases inside : start ≤ query.length
    · rw [if_pos inside, if_pos inside]
      by_cases more : ampersand ∈ query.drop start
      · obtain ⟨piece, rest, split, free⟩ := List.eq_append_cons_of_mem more
        have pieces : (query.drop start).splitOn ampersand = piece :: rest.splitOn ampersand := by
          rw [split, List.splitOn_append_cons_self, List.splitOn_eq_singleton free, List.singleton_append]
        simp only [stop_some split free, Nat.add_sub_cancel_left]
        refine (substr_returns inside).then ?_
        rw [substr_piece split, pieces, List.forall_mem_cons]
        refine (parsePair_returns agrees piece parameters).bind fun _ => ?_
        rw [← drop_piece split]
        exact ih (by omega)
      · simp only [stop_none more]
        refine (substr_returns inside).then ?_
        rw [substr_last, List.splitOn_eq_singleton more, List.forall_mem_singleton]
        refine ((parsePair_returns agrees _ parameters).bind fun _ => ih (by omega)).iff (and_iff_left ?_)
        rw [List.drop_eq_nil_of_le (Nat.le_succ _)]
        exact asks_empty
    · rw [if_neg inside, if_neg inside, List.drop_eq_nil_of_le (by omega)]
      exact Returns.pure.iff (iff_of_true trivial asks_empty)

/-- **`ParseTarget`.** Its calls meet their preconditions exactly if no part of the query asks for a byte outside the
domain, and then it computes what the model computes. -/
theorem parseTarget_returns (target : Bytes) :
    Returns (LibraryCall.Ok domain) (parseTarget hex target) (∀ part ∈ parts target, Asks domain part)
      (Websockets.parseTarget target) := by
  rw [parseTarget, Websockets.parseTarget]
  have asks : (∀ piece ∈ (queryOf target).splitOn ampersand, ∀ part ∈ cut piece, Asks domain part) ↔
      ∀ part ∈ parts target, Asks domain part := by
    rw [parts, List.forall_mem_flatMap]
  by_cases separated : question ∈ target
  · obtain ⟨path, query, split, free⟩ := List.eq_append_cons_of_mem separated
    have long : path.length + 1 ≤ target.length := by
      rw [split, List.length_append, List.length_cons]
      omega
    have behind : queryOf target = query := by rw [queryOf, split, dropWhile_before free, List.tail_cons]
    rw [behind] at asks
    simp only [find_first split free, substr_behind split]
    refine (substr_returns (Nat.zero_le _)).then ((substr_returns long).then ?_)
    rw [substr_behind split]
    have enough : query.length < 0 + (query.length + 1) := by omega
    exact (parseQuery_returns agrees enough).map.iff asks
  · have behind : queryOf target = [] := by rw [queryOf, dropWhile_free separated, List.tail_nil]
    have quiet : ∀ part ∈ parts target, Asks domain part := by
      rw [← asks, behind]
      exact asks_empty
    simp only [find_missing separated]
    exact (substr_returns (Nat.zero_le _)).map.iff (iff_of_true trivial quiet)

end Loops

/-! ## `std::isxdigit` -/

/-- A `char` is in the domain if it is not negative, or is `EOF`. -/
theorem inDomain_iff : InDomain (toInt c) ↔ c < 128 ∨ c = 255 := by
  have bound := c.toNat_lt
  have low : c < 128 ↔ c.toNat < 128 := UInt8.lt_iff_toNat_lt
  have last : c = 255 ↔ c.toNat = 255 := UInt8.toNat_inj.symm
  unfold InDomain toInt
  by_cases plain : c < 128
  · rw [if_pos plain, last, low]
    have small := low.1 plain
    omega
  · rw [if_neg plain, last, low]
    have large := mt low.2 plain
    omega

/-- In its domain it tells the digits. -/
theorem xdigit_agrees (undefined : Int → Bool) (c : UInt8) (ok : InDomain (toInt c)) :
    xdigit undefined (toInt c) = Websockets.isxdigit c := by
  obtain plain | rfl := inDomain_iff.1 ok
  · have bound := c.toNat_lt
    have back : toInt c = c.toNat := if_pos plain
    rw [xdigit, back, if_pos (by omega), Int.toNat_natCast, Nat.toUInt8, UInt8.ofNat_toNat]
  · rfl

/-- **Which targets are parsed with allowed library calls only.** Whatever `std::isxdigit` answers outside its domain,
every call of `ParseTarget` and `UrlDecode` meets its precondition exactly if, in each key and each value of the query,
a byte behind a `%` with two bytes to look at is below `0x80` or `0xff`, and so is the next one if that byte is a
digit. -/
theorem library_calls_ok (undefined : Int → Bool) (target : Bytes) :
    (parseTarget (xdigit undefined) target).Meets (LibraryCall.Ok InDomain) ↔
      ∀ part ∈ parts target, ∀ hi lo rest, percent :: hi :: lo :: rest <:+ part →
        (hi < 128 ∨ hi = 255) ∧ (Websockets.isxdigit hi = true → lo < 128 ∨ lo = 255) := by
  rw [(parseTarget_returns (xdigit_agrees undefined) target).meets]
  refine forall₂_congr fun part _ => ?_
  simp only [← inDomain_iff]
  constructor
  · intro asks hi lo rest suffix
    exact asks _ suffix hi lo rest rfl
  · rintro asks s suffix hi lo rest rfl
    exact asks hi lo rest suffix

/-- A letter that is not ASCII, in UTF-8, behind a `%`: `std::isxdigit` gets a negative argument that is not `EOF`. -/
theorem isxdigit_misused :
    LibraryCall.isxdigit (-61) ∈ (parseTarget (xdigit fun _ => false) (str "/search?q=%" ++ [0xc3, 0xa9])).calls ∧
      ¬ (parseTarget (xdigit fun _ => false) (str "/search?q=%" ++ [0xc3, 0xa9])).Meets (LibraryCall.Ok InDomain) := by
  decide

/-- No other call is ever misused by a library that finds no digits outside the domain, and it computes what the
model computes on every target. -/
theorem parseTarget_refines (undefined : Int → Bool) (none : ∀ arg, undefined arg = false) (target : Bytes) :
    (parseTarget (xdigit undefined) target).Meets (LibraryCall.Ok fun _ => True) ∧
      (parseTarget (xdigit undefined) target).value = Websockets.parseTarget target := by
  have agrees : ∀ c, True → xdigit undefined (toInt c) = Websockets.isxdigit c := by
    intro c _
    by_cases ok : InDomain (toInt c)
    · exact xdigit_agrees undefined c ok
    · -- above `0x7f` there are no digits
      have high : ¬ c < 128 := fun low => ok (inDomain_iff.2 (.inl low))
      have quiet : Websockets.isxdigit c = false := by
        simp only [Websockets.isxdigit, UInt8.le_iff_toNat_le, UInt8.lt_iff_toNat_lt, UInt8.reduceToNat] at high ⊢
        simp only [Bool.or_eq_false_iff, Bool.and_eq_false_iff, decide_eq_false_iff_not]
        omega
      obtain ⟨notEof, outside⟩ := not_or.1 ok
      rw [xdigit, if_neg outside, if_neg notEof, none, quiet]
  have returns : Returns (LibraryCall.Ok fun _ => True) (parseTarget (xdigit undefined) target) _ _ :=
    parseTarget_returns agrees target
  have free : ∀ part ∈ parts target, Asks (fun _ => True) part := fun _ _ _ _ _ _ _ _ => ⟨trivial, fun _ => trivial⟩
  exact ⟨returns.meets.2 free, returns.value free⟩

end Calls

end Websockets
