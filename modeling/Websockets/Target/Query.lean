import Websockets.Target
import Websockets.Lib.Split

/-!
# What `ParseTarget` computes

A target is read without positions: its path ends at the first `?`, the query behind it is cut at every
`&`, a piece at its first `=`, and a decoder reads one escape or one byte after the other. The loops of the
source agree with that on every input, well formed or not. Decoding undoes every encoding of a list of
pairs, whichever bytes were written as escapes.
-/

namespace Websockets

open Lib

/-! ## The reading without positions -/

/-- The byte two hexadecimal digits stand for. -/
def escaped (hi lo : UInt8) : UInt8 := (16 * hexValue hi + hexValue lo).toUInt8

/-- A byte outside an escape. -/
def decodePlus (c : UInt8) : UInt8 := if c == plus then space else c

/-- One pass: an escape is three bytes, and every other byte is read by itself. -/
def decode : Bytes → Bytes
  | [] => []
  | c :: hi :: lo :: rest =>
    if c == percent && isxdigit hi && isxdigit lo then escaped hi lo :: decode rest
    else decodePlus c :: decode (hi :: lo :: rest)
  | c :: rest => decodePlus c :: decode rest

def pathOf (target : Bytes) : Bytes := target.takeWhile (· != question)

/-- What follows the first `?`, nothing if there is none. -/
def queryOf (target : Bytes) : Bytes := (target.dropWhile (· != question)).tail

/-- A piece is cut at its first `=`; without one its value is empty. -/
def readPair (piece : Bytes) : Bytes × Bytes :=
  (decode (piece.takeWhile (· != equals)), decode (piece.dropWhile (· != equals)).tail)

/-- The pairs of a query, in order. -/
def readPairs (query : Bytes) : List (Bytes × Bytes) :=
  ((query.splitOn ampersand).filter (!·.isEmpty)).map readPair

/-- The pairs are entered from the left, so later ones overwrite earlier ones. -/
def enter (parameters : HttpQueryParameters) (pairs : List (Bytes × Bytes)) : HttpQueryParameters :=
  pairs.foldl (fun parameters pair => parameters.insert pair.1 pair.2) parameters

def readTarget (target : Bytes) : Bytes × HttpQueryParameters :=
  (pathOf target, enter ∅ (readPairs (queryOf target)))

/-! ## Searches -/

variable {s before rest input query out target : Bytes} {c hi lo : UInt8} {start i left : Nat}

theorem find_none (free : c ∉ s.drop start) : find s c start = none := by
  unfold find
  rw [List.findIdx?_eq_none_iff.2, Option.map_none]
  intro x mem
  exact beq_eq_false_iff_ne.2 fun eq => free (eq ▸ mem)

theorem find_some (split : s.drop start = before ++ c :: rest) (free : c ∉ before) :
    find s c start = some (start + before.length) := by
  have index : (before ++ c :: rest).findIdx? (· == c) = some before.length := by
    rw [List.findIdx?_append, List.findIdx?_eq_none_iff.2, List.findIdx?_cons]
    · simp
    · intro x mem
      exact beq_eq_false_iff_ne.2 fun eq => free (eq ▸ mem)
  rw [find, split, index, Option.map_some]

/-! A string cut at its first `c`, and one cut at its first `c` from `start` on. -/

theorem find_first (split : s = before ++ c :: rest) (free : c ∉ before) : find s c 0 = some before.length := by
  rw [find_some (by rwa [List.drop_zero]) free, Nat.zero_add]

theorem find_missing (free : c ∉ s) : find s c 0 = none := find_none (by simpa using free)

theorem substr_before (split : s = before ++ c :: rest) : substr s 0 (some before.length) = before := by
  simp [substr, split]

theorem substr_behind (split : s = before ++ c :: rest) : substr s (before.length + 1) none = rest := by
  simp [substr, split]

theorem substr_piece (split : s.drop start = before ++ c :: rest) : substr s start (some before.length) = before := by
  simp [substr, split]

theorem drop_piece (split : s.drop start = before ++ c :: rest) : s.drop (start + before.length + 1) = rest := by
  rw [Nat.add_assoc, ← List.drop_drop, split]
  simp

/-- The end of the piece that starts at `start`. -/
theorem stop_some (split : s.drop start = before ++ c :: rest) (free : c ∉ before) :
    (find s c start).getD s.length = start + before.length := by
  rw [find_some split free, Option.getD_some]

theorem stop_none (free : c ∉ s.drop start) : (find s c start).getD s.length = s.length := by
  rw [find_none free, Option.getD_none]

/-- The last piece. -/
theorem substr_last : substr s start (some (s.length - start)) = s.drop start := by
  rw [substr, ← List.length_drop, List.take_length]

/-! ## `UrlDecode` -/

theorem stoi16_two (hi lo : UInt8) : (stoi16 [hi, lo]).toUInt8 = escaped hi lo := by
  simp [stoi16, escaped]

theorem decode_escape (digits : isxdigit hi = true ∧ isxdigit lo = true) :
    decode (percent :: hi :: lo :: rest) = escaped hi lo :: decode rest := by
  rw [decode, if_pos (by simp [digits])]

/-- A byte that does not begin an escape. -/
theorem decode_byte (other : ∀ hi lo more, rest = hi :: lo :: more →
      ¬ (c = percent ∧ isxdigit hi = true ∧ isxdigit lo = true)) :
    decode (c :: rest) = decodePlus c :: decode rest := by
  match rest with
  | [] => rfl
  | [hi] => rfl
  | hi :: lo :: more =>
    rw [decode, if_neg]
    have plain := other hi lo more rfl
    simpa [and_assoc] using plain

theorem decode_of_ne_percent (other : c ≠ percent) : decode (c :: rest) = decodePlus c :: decode rest :=
  decode_byte fun _ _ _ _ escape => other escape.1

theorem drop_three (bound : i + 2 < input.length) :
    input.drop i = input[i] :: input[i + 1] :: input[i + 2] :: input.drop (i + 3) := by
  rw [List.drop_eq_getElem_cons, List.drop_eq_getElem_cons, List.drop_eq_getElem_cons]

/-- The digits of an escape, and what follows it. -/
theorem substr_escape (split : input.drop i = c :: hi :: lo :: rest) : substr input (i + 1) (some 2) = [hi, lo] := by
  rw [substr, ← List.drop_drop, split]
  rfl

theorem drop_escape (split : input.drop i = c :: hi :: lo :: rest) : input.drop (i + 3) = rest := by
  rw [← List.drop_drop, split]
  rfl

/-- The loop sees an escape at `i` exactly if the rest of the input begins with one. -/
theorem escape_iff : (input[i]? = some percent ∧ i + 2 < input.length ∧ input[i + 1]?.any isxdigit = true ∧
      input[i + 2]?.any isxdigit = true) ↔
    ∃ hi lo rest, input.drop i = percent :: hi :: lo :: rest ∧ isxdigit hi = true ∧ isxdigit lo = true := by
  constructor
  · rintro ⟨here, bound, first, second⟩
    have split := drop_three bound
    rw [List.getElem?_eq_getElem (by omega)] at here first second
    rw [Option.some.inj here] at split
    exact ⟨_, _, _, split, first, second⟩
  · rintro ⟨hi, lo, rest, split, first, second⟩
    have at0 : input[i]? = some percent := by rw [← Nat.add_zero i, ← List.getElem?_drop, split]; rfl
    have at1 : input[i + 1]? = some hi := by rw [← List.getElem?_drop, split]; rfl
    have at2 : input[i + 2]? = some lo := by rw [← List.getElem?_drop, split]; rfl
    obtain ⟨bound, -⟩ := List.getElem?_eq_some_iff.1 at2
    exact ⟨at0, bound, by rw [at1]; exact first, by rw [at2]; exact second⟩

/-- The loop appends the reading of what it has still to see. -/
theorem urlDecodeFrom_eq (enough : input.length ≤ i + left) :
    urlDecodeFrom input left i out = out ++ decode (input.drop i) := by
  induction left generalizing i out with
  | zero =>
    rw [urlDecodeFrom, List.drop_eq_nil_of_le (by omega), decode, List.append_nil]
  | succ left ih =>
    rw [urlDecodeFrom]
    by_cases inside : i < input.length
    · rw [if_pos inside]
      by_cases escape : input[i]? = some percent ∧ i + 2 < input.length ∧ input[i + 1]?.any isxdigit = true ∧
          input[i + 2]?.any isxdigit = true
      · rw [if_pos escape, ih (by omega)]
        obtain ⟨hi, lo, rest, split, digits⟩ := escape_iff.1 escape
        rw [substr_escape split, stoi16_two, drop_escape split, split, decode_escape digits, List.append_assoc, List.singleton_append]
      · have split : input.drop i = input[i] :: input.drop (i + 1) := List.drop_eq_getElem_cons inside
        have plain : decode (input.drop i) = decodePlus input[i] :: decode (input.drop (i + 1)) := by
          rw [split]
          refine decode_byte fun hi lo more next begins => escape (escape_iff.2 ⟨hi, lo, more, ?_, begins.2⟩)
          rw [split, next, begins.1]
        rw [if_neg escape, List.getElem?_eq_getElem inside, plain]
        by_cases isPlus : input[i] = plus
        · rw [if_pos (by rw [isPlus]), ih (by omega), decodePlus, if_pos (by simp [isPlus]), List.append_assoc,
            List.singleton_append]
        · rw [if_neg fun eq => isPlus (Option.some.inj eq), ih (by omega), decodePlus, if_neg (by simpa using isPlus),
            Option.toList_some, List.append_assoc, List.singleton_append]
    · rw [if_neg inside, List.drop_eq_nil_of_le (by omega), decode, List.append_nil]

theorem urlDecode_eq (input : Bytes) : urlDecode input = decode input :=
  urlDecodeFrom_eq (Nat.le_add_left _ _)

/-! ## `ParseTarget` -/

theorem parsePair_eq (piece : Bytes) (parameters : HttpQueryParameters) :
    parsePair piece parameters =
      if piece.isEmpty then parameters else parameters.insert (readPair piece).1 (readPair piece).2 := by
  unfold parsePair
  refine if_congr .rfl rfl ?_
  by_cases cut : equals ∈ piece
  · obtain ⟨key, value, split, free⟩ := List.eq_append_cons_of_mem cut
    rw [find_first split free]
    simp only [substr_before split, substr_behind split, urlDecode_eq, readPair]
    rw [split, takeWhile_before free, dropWhile_before free, List.tail_cons]
  · rw [find_missing cut]
    simp only [urlDecode_eq, readPair]
    rw [takeWhile_free cut, dropWhile_free cut, List.tail_nil, decode]

/-- The pair of a piece, if the piece is not empty. -/
theorem readPairs_free (free : ampersand ∉ s) : readPairs s = if s.isEmpty then [] else [readPair s] := by
  rw [readPairs, List.splitOn_eq_singleton free]
  cases s with
  | nil => rfl
  | cons c s => rfl

theorem readPairs_cons :
    readPairs (before ++ ampersand :: rest) = readPairs before ++ readPairs rest := by
  rw [readPairs, List.splitOn_append_cons_self, List.filter_append, List.map_append]
  rfl

theorem enter_append (parameters : HttpQueryParameters) (pairs more : List (Bytes × Bytes)) :
    enter parameters (pairs ++ more) = enter (enter parameters pairs) more :=
  List.foldl_append

theorem enter_piece {parameters : HttpQueryParameters} (free : ampersand ∉ s) :
    parsePair s parameters = enter parameters (readPairs s) := by
  rw [parsePair_eq, readPairs_free free]
  split <;> rfl

/-- The loop enters the pieces of what it has still to see. -/
theorem parseQuery_eq {parameters : HttpQueryParameters} (enough : query.length < start + left) :
    parseQuery query left start parameters = enter parameters (readPairs (query.drop start)) := by
  induction left generalizing start parameters with
  | zero =>
    rw [parseQuery, List.drop_eq_nil_of_le (by omega)]
    rfl
  | succ left ih =>
    rw [parseQuery]
    by_cases inside : start ≤ query.length
    · rw [if_pos inside]
      by_cases cut : ampersand ∈ query.drop start
      · obtain ⟨piece, rest, split, free⟩ := List.eq_append_cons_of_mem cut
        simp only [stop_some split free]
        rw [Nat.add_sub_cancel_left, substr_piece split, ih (by omega), drop_piece split, enter_piece free, split,
          readPairs_cons, enter_append]
      · simp only [stop_none cut]
        rw [substr_last, ih (by omega), List.drop_eq_nil_of_le (Nat.le_succ _), enter_piece cut]
        rfl
    · rw [if_neg inside, List.drop_eq_nil_of_le (by omega)]
      rfl

theorem parseTarget_eq (target : Bytes) : parseTarget target = readTarget target := by
  unfold parseTarget readTarget pathOf queryOf
  by_cases cut : question ∈ target
  · obtain ⟨path, query, split, free⟩ := List.eq_append_cons_of_mem cut
    rw [find_first split free]
    simp only [substr_before split, substr_behind split]
    rw [parseQuery_eq (by omega), List.drop_zero, split, takeWhile_before free, dropWhile_before free, List.tail_cons]
  · rw [find_missing cut, takeWhile_free cut, dropWhile_free cut]
    rfl

/-- **`ParseTarget` on arbitrary input.** It reads every target as above, and neither loop is cut short by
the bound on its rounds. -/
theorem parse_target_reads (target : Bytes) :
    parseTarget target = readTarget target ∧
      (∀ (query : Bytes) (rounds : Nat), query.length + 1 ≤ rounds →
        parseQuery query rounds 0 ∅ = parseQuery query (query.length + 1) 0 ∅) ∧
      ∀ (input : Bytes) (rounds : Nat), input.length ≤ rounds → urlDecodeFrom input rounds 0 [] = urlDecode input := by
  refine ⟨parseTarget_eq target, fun query rounds enough => ?_, fun input rounds enough => ?_⟩
  · rw [parseQuery_eq (by omega), parseQuery_eq (by omega)]
  · rw [urlDecodeFrom_eq (by omega), List.drop_zero, List.nil_append, urlDecode_eq]

/-! ## Encodings -/

/-- A byte is written as an escape, as itself where it is not reserved, or as `+` where it is a space. -/
inductive EncodesByte (reserved : List UInt8) : UInt8 → Bytes → Prop
  | literal {c : UInt8} (free : c ∉ reserved) : EncodesByte reserved c [c]
  | escape {hi lo : UInt8} (first : isxdigit hi = true) (second : isxdigit lo = true) :
      EncodesByte reserved (escaped hi lo) [percent, hi, lo]
  | blank : EncodesByte reserved space [plus]

inductive Encodes (reserved : List UInt8) : Bytes → Bytes → Prop
  | nil : Encodes reserved [] []
  | cons {c : UInt8} {code s codes : Bytes} (byte : EncodesByte reserved c code) (others : Encodes reserved s codes) :
      Encodes reserved (c :: s) (code ++ codes)

def valueReserved : List UInt8 := [percent, plus, ampersand]

/-- In a key the first `=` would end it. -/
def keyReserved : List UInt8 := equals :: valueReserved

/-- `key=value`. -/
def EncodesPair (pair : Bytes × Bytes) (piece : Bytes) : Prop :=
  ∃ key value, Encodes keyReserved pair.1 key ∧ Encodes valueReserved pair.2 value ∧ piece = key ++ equals :: value

/-- The pairs in order, joined by `&`. -/
def EncodesPairs (pairs : List (Bytes × Bytes)) (encoding : Bytes) : Prop :=
  ∃ pieces, List.Forall₂ EncodesPair pairs pieces ∧ encoding = [ampersand].intercalate pieces

variable {reserved code codes piece encoding path : Bytes} {pair : Bytes × Bytes} {pairs : List (Bytes × Bytes)}

theorem EncodesByte.decode_append (byte : EncodesByte reserved c code) (some : percent ∈ reserved ∧ plus ∈ reserved) :
    decode (code ++ rest) = c :: decode rest := by
  cases byte with
  | literal free =>
    have notPercent : c ≠ percent := fun eq => free (eq ▸ some.1)
    have notPlus : c ≠ plus := fun eq => free (eq ▸ some.2)
    rw [List.singleton_append, decode_of_ne_percent notPercent, decodePlus, if_neg (by simpa using notPlus)]
  | escape first second => exact decode_escape ⟨first, second⟩
  | blank => exact decode_of_ne_percent (by decide)

/-- Decoding undoes an encoding. -/
theorem Encodes.decode (encodes : Encodes reserved s codes) (some : percent ∈ reserved ∧ plus ∈ reserved) :
    Websockets.decode codes = s := by
  induction encodes with
  | nil => rfl
  | cons byte others ih => rw [byte.decode_append some, ih]

/-- No code holds a reserved byte, but for the two that begin an escape or stand for a space. -/
theorem EncodesByte.free (byte : EncodesByte reserved c code) (reserves : lo ∈ reserved)
    (plain : lo ≠ percent ∧ lo ≠ plus ∧ isxdigit lo = false) : lo ∉ code := by
  cases byte with
  | literal free => exact fun mem => free (List.mem_singleton.1 mem ▸ reserves)
  | escape first second =>
    intro mem
    simp only [List.mem_cons, List.not_mem_nil, or_false] at mem
    rcases mem with eq | rfl | rfl
    · exact plain.1 eq
    · exact absurd (first.symm.trans plain.2.2) (by decide)
    · exact absurd (second.symm.trans plain.2.2) (by decide)
  | blank => exact fun mem => plain.2.1 (List.mem_singleton.1 mem)

theorem Encodes.free (encodes : Encodes reserved s codes) (reserves : lo ∈ reserved)
    (plain : lo ≠ percent ∧ lo ≠ plus ∧ isxdigit lo = false) : lo ∉ codes := by
  induction encodes with
  | nil => exact List.not_mem_nil
  | cons byte others ih => exact fun mem => (List.mem_append.1 mem).elim (byte.free reserves plain) ih

theorem EncodesPair.free (encodes : EncodesPair pair piece) : ampersand ∉ piece := by
  obtain ⟨key, value, keys, values, rfl⟩ := encodes
  have plain : ampersand ≠ percent ∧ ampersand ≠ plus ∧ isxdigit ampersand = false := by decide
  intro mem
  rcases List.mem_append.1 mem with mem | mem
  · exact keys.free (by decide) plain mem
  · rcases List.mem_cons.1 mem with eq | mem
    · exact absurd eq (by decide)
    · exact values.free (by decide) plain mem

/-- A piece is read as the pair it was written for. -/
theorem EncodesPair.read (encodes : EncodesPair pair piece) : readPairs piece = [pair] := by
  have free := encodes.free
  obtain ⟨key, value, keys, values, rfl⟩ := encodes
  have cut : equals ∉ key := keys.free (by decide) (by decide)
  rw [readPairs_free free, if_neg (by simp), readPair, takeWhile_before cut, dropWhile_before cut, List.tail_cons,
    keys.decode (by decide), values.decode (by decide)]

theorem EncodesPairs.read (encodes : EncodesPairs pairs encoding) : readPairs encoding = pairs := by
  obtain ⟨pieces, each, rfl⟩ := encodes
  induction each with
  | nil => rfl
  | @cons pair piece pairs pieces one others ih =>
    cases pieces with
    | nil =>
      cases others
      rw [List.intercalate_singleton]
      exact one.read
    | cons next pieces =>
      rw [List.intercalate_cons_cons, List.append_assoc, List.singleton_append, readPairs_cons, one.read, ih]
      rfl

/-- **Decoding undoes encoding.** Behind a path without `?`, every encoding of a list of pairs is read as
the map of those pairs. -/
theorem parse_target_decodes (path : Bytes) (noQuery : question ∉ path) (pairs : List (Bytes × Bytes))
    (encoding : Bytes) (encodes : EncodesPairs pairs encoding) :
    parseTarget (path ++ question :: encoding) =
      (path, pairs.foldl (fun parameters pair => parameters.insert pair.1 pair.2) ∅) := by
  rw [parseTarget_eq, readTarget, pathOf, queryOf, takeWhile_before noQuery, dropWhile_before noQuery,
    List.tail_cons, encodes.read]
  rfl

/-- A separator, an escape, a space and an empty value. -/
theorem parse_target_decodes_form :
    parseTarget (str "/a" ++ question :: str "k=%3d+=&%6B=") =
      (str "/a", ((∅ : HttpQueryParameters).insert (str "k") (str "= =")).insert (str "k") []) := by
  refine parse_target_decodes (str "/a") (by decide) [(str "k", str "= ="), (str "k", [])] (str "k=%3d+=&%6B=") ?_
  refine ⟨[str "k=%3d+=", str "%6B="], .cons ?_ (.cons ?_ .nil), rfl⟩
  · exact ⟨str "k", str "%3d+=", .cons (.literal (by decide)) .nil,
      .cons (@EncodesByte.escape _ 51 100 rfl rfl) (.cons .blank (.cons (.literal (by decide)) .nil)), rfl⟩
  · exact ⟨str "%6B", [], .cons (@EncodesByte.escape _ 54 66 rfl rfl) .nil, .nil, rfl⟩

end Websockets
