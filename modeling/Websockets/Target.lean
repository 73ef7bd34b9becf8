import Websockets.Basic

/-!
# Request targets and uris

`UrlDecode`, `ParseTarget` and `UriMatches` of `CWebsocketServer.cpp`. Positions in a string are
indices, as in the source, and `npos` is `none`. Both loops are by position, with a number of rounds
as their bound.
-/

namespace Websockets

/-- `HttpMsg::HttpQueryParameters`: a map from decoded keys to decoded values. -/
abbrev HttpQueryParameters := Std.TreeMap Bytes Bytes

def percent : UInt8 := 37
def ampersand : UInt8 := 38
def plus : UInt8 := 43
def slash : UInt8 := 47
def equals : UInt8 := 61
def question : UInt8 := 63
def space : UInt8 := 32

/-- `std::isxdigit`. -/
def isxdigit (c : UInt8) : Bool :=
  (48 ≤ c && c ≤ 57) || (65 ≤ c && c ≤ 70) || (97 ≤ c && c ≤ 102)

/-- The value of a hexadecimal digit. -/
def hexValue (c : UInt8) : Nat :=
  if c ≤ 57 then c.toNat - 48 else if c ≤ 70 then c.toNat - 55 else c.toNat - 87

/-- `std::stoi(s, nullptr, 16)` of digits. -/
def stoi16 (s : Bytes) : Nat := s.foldl (fun n c => 16 * n + hexValue c) 0

/-- `s.find(c, start)`. -/
def find (s : Bytes) (c : UInt8) (start : Nat) : Option Nat :=
  ((s.drop start).findIdx? (· == c)).map (start + ·)

/-- `s.substr(pos, count)`, with `none` for `npos`. -/
def substr (s : Bytes) (pos : Nat) (count : Option Nat) : Bytes :=
  match count with
  | none => s.drop pos
  | some n => (s.drop pos).take n

/-- The loop of `UrlDecode` from position `i`. -/
def urlDecodeFrom (input : Bytes) : Nat → Nat → Bytes → Bytes
  | 0, _, out => out
  | left + 1, i, out =>
    if i < input.length then
      if input[i]? = some percent ∧ i + 2 < input.length ∧ input[i + 1]?.any isxdigit ∧ input[i + 2]?.any isxdigit then
        urlDecodeFrom input left (i + 3) (out ++ [(stoi16 (substr input (i + 1) (some 2))).toUInt8])
      else if input[i]? = some plus then urlDecodeFrom input left (i + 1) (out ++ [space])
      else urlDecodeFrom input left (i + 1) (out ++ input[i]?.toList)
    else out

def urlDecode (input : Bytes) : Bytes := urlDecodeFrom input input.length 0 []

/-- One piece of the query is entered into the parameters. -/
def parsePair (pair : Bytes) (parameters : HttpQueryParameters) : HttpQueryParameters :=
  if pair.isEmpty then parameters
  else match find pair equals 0 with
    | none => parameters.insert (urlDecode pair) []
    | some eq => parameters.insert (urlDecode (substr pair 0 (some eq))) (urlDecode (substr pair (eq + 1) none))

/-- The loop of `ParseTarget` from position `start`. -/
def parseQuery (query : Bytes) : Nat → Nat → HttpQueryParameters → HttpQueryParameters
  | 0, _, parameters => parameters
  | left + 1, start, parameters =>
    if start ≤ query.length then
      let stop := (find query ampersand start).getD query.length
      parseQuery query left (stop + 1) (parsePair (substr query start (some (stop - start))) parameters)
    else parameters

/-- Splits a request target into path and decoded query parameters. -/
def parseTarget (target : Bytes) : Bytes × HttpQueryParameters :=
  match find target question 0 with
  | none => (substr target 0 none, ∅)
  | some queryPos =>
    let query := substr target (queryPos + 1) none
    (substr target 0 (some queryPos), parseQuery query (query.length + 1) 0 ∅)

/-- Whether `path` lies within `uri`, by path segments. -/
def uriMatches (uri path : Bytes) : Bool :=
  if uri.isEmpty || path.take uri.length != uri then false
  else path.length == uri.length || path[uri.length]? == some slash || uri.getLast? == some slash

example : (parseTarget (str "/a/b?x=%41+1")).1 = str "/a/b" ∧
    (parseTarget (str "/a/b?x=%41+1")).2.toList = [(str "x", str "A 1")] := by decide

end Websockets
