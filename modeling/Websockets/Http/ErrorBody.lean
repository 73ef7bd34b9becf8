import Websockets.Lib.Json
import Websockets.Http.Responses

/-!
# The bodies of the 404 responses

`HttpErrorMessage` puts its arguments between quotes as they are. What it makes of a text is an object that
holds the text if nothing in the text would have to be escaped, and only then; and what it is given by
`OnRead` and `HandleHttpRequest` has the path in it.
-/

namespace Websockets

open Lib Json

/-- Octets below 128 are their code points. -/
def codePoints (b : Bytes) : Text := b.map UInt8.toNat

/-- A JSON text with the single member `message`, whose members are `shortMessage` and, with the given
value, `longMessage`. -/
def IsErrorBody (body longMessage : Bytes) : Prop :=
  ∃ members shortMessage, parse (codePoints body) = some (.object [(text "message", .object members)]) ∧
    members.Perm [(text "shortMessage", .string shortMessage), (text "longMessage", .string (codePoints longMessage))]

theorem codePoints_append (a b : Bytes) : codePoints (a ++ b) = codePoints a ++ codePoints b := List.map_append

/-- What `HttpErrorMessage` writes behind the long message. -/
def afterLong : Text := [quote, closeBrace, closeBrace]

/-- What it writes behind the short message. -/
def afterShort (longMsg : Bytes) : Text :=
  quote :: comma :: 32 :: quote :: (text "longMessage" ++
    quote :: colon :: 32 :: quote :: (codePoints longMsg ++ afterLong))

theorem httpErrorMessage_codePoints (shortMsg longMsg : Bytes) :
    codePoints (httpErrorMessage shortMsg longMsg) =
      openBrace :: quote :: (text "message" ++ quote :: colon :: 32 :: openBrace :: 32 :: quote ::
        (text "shortMessage" ++ quote :: colon :: 32 :: quote :: (codePoints shortMsg ++ afterShort longMsg))) := by
  simp only [httpErrorMessage, codePoints_append, List.append_assoc]
  rfl

section HttpErrorMessage

variable {shortMsg longMsg : Bytes} {members : List (Text × Value)} {rest : Text} {n : Nat}

theorem plain_name (name : String) (plain : (text name).all (IsPlain ·) = true) : ∀ c ∈ text name, IsPlain c := by
  simpa using plain

/-- Of two members that are read from what is written the second is the long message, up to the first quote that
ends its literal. -/
theorem longMessage_read (plain : ∀ c ∈ codePoints shortMsg, IsPlain c) (two : members.length = 2)
    (read : readMembers n (quote :: (text "shortMessage" ++ quote :: colon :: 32 :: quote ::
      (codePoints shortMsg ++ afterShort longMsg))) = some (members, rest)) :
    ∃ m s t, readString m (codePoints longMsg ++ afterLong) = some (s, t) ∧ rest.length < t.length ∧
      (text "longMessage", .string s) ∈ members := by
  obtain ⟨_, short, t, value, next⟩ := readMembers_name_inv (plain_name "shortMessage" (by decide)) read
  rw [readValue_blank rfl] at value
  obtain ⟨_, string, rfl⟩ := readValue_string_inv value
  rw [afterShort, readString_name plain] at string
  cases string
  obtain ⟨t₂, more, separated, read, rfl⟩ | ⟨closing, _⟩ := next
  · rw [expect_self rfl] at separated
    cases separated
    rw [readMembers_blank rfl] at read
    obtain ⟨last, rfl⟩ := List.length_eq_one_iff.1 (Nat.succ.inj two)
    obtain ⟨_, v, t₁, value, ⟨_, _, _, members, same⟩ | ⟨closing, same⟩⟩ :=
      readMembers_name_inv (plain_name "longMessage" (by decide)) read
    · cases same
      exact absurd rfl (readMembers_ne_nil members)
    · cases same
      rw [readValue_blank rfl] at value
      obtain ⟨s, string, rfl⟩ := readValue_string_inv value
      exact ⟨_, s, t₁, string, expect_length closing, by simp⟩
  · rw [expect_other rfl (by decide)] at closing
    cases closing

/-- A body that holds the long message as it is escapes nothing in it. -/
theorem IsErrorBody.verbatim (plain : ∀ c ∈ codePoints shortMsg, IsPlain c)
    (body : IsErrorBody (httpErrorMessage shortMsg longMsg) longMsg) :
    quote ∉ codePoints longMsg ∧ backslash ∉ codePoints longMsg := by
  obtain ⟨members, short, parsed, perm⟩ := body
  rw [httpErrorMessage_codePoints, parse] at parsed
  simp only [Option.bind_eq_bind, Option.bind_eq_some_iff, Prod.exists] at parsed
  obtain ⟨v, rest, read, parsed⟩ := parsed
  split at parsed
  · cases parsed
    obtain ⟨_, outer, read, same⟩ := readValue_object_inv (expect_other rfl (by decide)) read
    cases same
    obtain ⟨_, t, value, closing⟩ := readMembers_single_inv (plain_name "message" (by decide)) read
    rw [readValue_blank rfl] at value
    obtain ⟨_, _, read, same⟩ :=
      readValue_object_inv (by rw [expect_blank rfl]; exact expect_other rfl (by decide)) value
    cases same
    rw [readMembers_blank rfl] at read
    obtain ⟨m, s, t', string, shorter, mem⟩ := longMessage_read plain perm.length_eq read
    -- the two names differ, so this member is the one the body is to have
    have same : s = codePoints longMsg := by
      have either := perm.mem_iff.1 mem
      simp only [List.mem_cons, Prod.mk.injEq, Value.string.injEq, List.not_mem_nil, or_false] at either
      obtain ⟨name, _⟩ | ⟨_, same⟩ := either
      · exact absurd name (by decide)
      · exact same
    subst same
    apply readString_verbatim string
    have outer := expect_length closing
    rw [List.length_cons, List.length_singleton]
    omega
  · cases parsed

/-- A long message of plain characters is read back as it is. -/
theorem isErrorBody_of_plain (plain : ∀ c ∈ codePoints shortMsg, IsPlain c)
    (plainLong : ∀ c ∈ codePoints longMsg, IsPlain c) :
    IsErrorBody (httpErrorMessage shortMsg longMsg) longMsg := by
  refine ⟨[(text "shortMessage", .string (codePoints shortMsg)), (text "longMessage", .string (codePoints longMsg))],
    codePoints shortMsg, ?_, List.Perm.refl _⟩
  have long (n : Nat) : readMembers (n + 2) (quote :: (text "longMessage" ++ quote :: colon :: 32 :: quote ::
      (codePoints longMsg ++ afterLong))) =
      some ([(text "longMessage", .string (codePoints longMsg))], [closeBrace]) := by
    refine readMembers_last (plain_name "longMessage" (by decide)) ?_ (expect_other rfl (by decide)) (expect_self rfl)
    rw [readValue_blank rfl, readValue_string, afterLong, readString_name plainLong]
    rfl
  have short (n : Nat) : readMembers (n + 3) (32 :: quote :: (text "shortMessage" ++ quote :: colon :: 32 :: quote ::
      (codePoints shortMsg ++ afterShort longMsg))) =
      some ([(text "shortMessage", .string (codePoints shortMsg)), (text "longMessage", .string (codePoints longMsg))],
        [closeBrace]) := by
    have value : readValue (n + 2) (32 :: quote :: (codePoints shortMsg ++ afterShort longMsg)) =
        some (.string (codePoints shortMsg), comma :: 32 :: quote :: (text "longMessage" ++ quote :: colon :: 32 ::
          quote :: (codePoints longMsg ++ afterLong))) := by
      rw [readValue_blank rfl, readValue_string, afterShort, readString_name plain]
      rfl
    rw [readMembers_blank rfl]
    apply readMembers_more (plain_name "shortMessage" (by decide)) value (expect_self rfl)
    rw [readMembers_blank rfl]
    exact long n
  have inner (n : Nat) : readValue (n + 4) (32 :: openBrace :: 32 :: quote :: (text "shortMessage" ++
      quote :: colon :: 32 :: quote :: (codePoints shortMsg ++ afterShort longMsg))) =
      some (.object [(text "shortMessage", .string (codePoints shortMsg)),
        (text "longMessage", .string (codePoints longMsg))], [closeBrace]) := by
    rw [readValue_blank rfl, readValue_object, short]
    · rfl
    · rw [expect_blank rfl]
      exact expect_other rfl (by decide)
  have outer (n : Nat) := readMembers_last (plain_name "message" (by decide)) (inner n) (expect_other rfl (by decide))
    (expect_self rfl)
  rw [httpErrorMessage_codePoints, parse]
  obtain ⟨n, length⟩ : ∃ n, (openBrace :: quote :: (text "message" ++ quote :: colon :: 32 :: openBrace :: 32 :: quote ::
      (text "shortMessage" ++ quote :: colon :: 32 :: quote :: (codePoints shortMsg ++ afterShort longMsg)))).length =
      n + 6 := ⟨_, rfl⟩
  rw [length, readValue_object (expect_other rfl (by decide)), outer]
  rfl

end HttpErrorMessage

/-! ## The requests that are refused -/

namespace CHttpRequest

def path (request : CHttpRequest) : Bytes := (parseTarget request.target).1

def refusal (request : CHttpRequest) : CHttpResponse :=
  if request.isUpgrade then request.notAllowed else request.notFound

/-- The long message of the refusal. -/
def refusalText (request : CHttpRequest) : Bytes :=
  if request.isUpgrade then str "Websocket uri '" ++ request.path ++ str "' is not allowed"
  else str "No handler registered for '" ++ request.path ++ str "'"

variable {request : CHttpRequest}

theorem refusal_result : request.refusal.result = 404 := by
  unfold refusal
  split <;> rfl

theorem refusal_body : request.refusal.body = httpErrorMessage (str "Not Found") request.refusalText := by
  unfold refusal refusalText
  split <;> rfl

theorem mem_path {c : UInt8} (mem : c ∈ request.path) : c ∈ request.target := by
  unfold path parseTarget at mem
  split at mem
  · exact List.mem_of_mem_drop mem
  · exact List.mem_of_mem_drop (List.mem_of_mem_take mem)

/-- The text around the path needs no escapes. -/
theorem mem_refusalText {c : Nat} (special : ¬ IsPlain c) :
    c ∈ codePoints request.refusalText ↔ c ∈ codePoints request.path := by
  have around {before behind : Bytes} (plain : (codePoints before ++ codePoints behind).all (IsPlain ·) = true) :
      c ∈ codePoints (before ++ request.path ++ behind) ↔ c ∈ codePoints request.path := by
    have none : c ∉ codePoints before ++ codePoints behind := fun mem =>
      special (of_decide_eq_true (List.all_eq_true.1 plain c mem))
    rw [List.mem_append, not_or] at none
    rw [codePoints_append, codePoints_append, List.mem_append, List.mem_append]
    simp only [none, false_or, or_false]
  unfold refusalText
  split
  · exact around (by decide)
  · exact around (by decide)

/-- The text is read back as it is unless the path has a quote or a backslash in it. -/
theorem refusal_iff (admitted : ∀ c ∈ request.target, 32 < c ∧ c < 127) :
    IsErrorBody request.refusal.body request.refusalText ↔
      quote ∉ codePoints request.path ∧ backslash ∉ codePoints request.path := by
  have short : ∀ c ∈ codePoints (str "Not Found"), IsPlain c := by decide
  rw [refusal_body]
  constructor
  · intro body
    obtain ⟨quotes, backslashes⟩ := body.verbatim short
    rw [mem_refusalText (by decide)] at quotes backslashes
    exact ⟨quotes, backslashes⟩
  · rintro ⟨quotes, backslashes⟩
    refine isErrorBody_of_plain short fun c mem => ?_
    by_contra special
    have inPath := (mem_refusalText special).1 mem
    obtain ⟨octet, here, rfl⟩ := List.mem_map.1 inPath
    have printable := (admitted octet (mem_path here)).1
    refine special ⟨Nat.le_of_lt (UInt8.lt_iff_toNat_lt.1 printable), fun same => quotes ?_, fun same => backslashes ?_⟩
    · rwa [same] at inPath
    · rwa [same] at inPath

end CHttpRequest

namespace CHttpConnection

/-- What the connection has written for requests without a wrapper, and what it may still write. -/
structure Refusing (c : CHttpConnection) : Prop where
  asked : ∀ n, c.todo = some (.nextConnectionId n) ∨ c.todo = some (.findHttpHandler n) →
    ∃ e, c.exchanges[n]? = some e ∧ e.request.isUpgrade = false
  replying : ∀ n, .sendResponse n ∈ c.strand → (c.wrapperOf n).isSome = true
  answers : ∀ n response, .writeStarted n response ∈ c.log →
    ∃ e, c.exchanges[n]? = some e ∧ (e.wrapper = none → response = e.request.refusal)

variable {c c' : CHttpConnection} {n : Nat}

/-- The requests are the same, and what had a wrapper has one. -/
structure Keeps (c c' : CHttpConnection) : Prop where
  exchanges : ∀ (n : Nat) (e : Exchange), c.exchanges[n]? = some e →
    ∃ e', c'.exchanges[n]? = some e' ∧ e'.request = e.request ∧ (e'.wrapper = none → e.wrapper = none)
  strand : ∀ n, .sendResponse n ∈ c'.strand → .sendResponse n ∈ c.strand ∨ (c'.wrapperOf n).isSome = true
  log : ∀ n response, .writeStarted n response ∈ c'.log → .writeStarted n response ∈ c.log ∨
    ∃ e, c'.exchanges[n]? = some e ∧ (e.wrapper = none → response = e.request.refusal)

theorem Keeps.wrapperOf (keeps : Keeps c c') (n : Nat) (had : (c.wrapperOf n).isSome = true) :
    (c'.wrapperOf n).isSome = true := by
  obtain ⟨w, found⟩ := Option.isSome_iff_exists.1 had
  obtain ⟨e, here, wrapper⟩ := wrapperOf_inv found
  obtain ⟨e', here', _, kept⟩ := keeps.exchanges n e here
  rw [CHttpConnection.wrapperOf, here', Option.bind_some, Option.isSome_iff_ne_none]
  intro none
  rw [kept none] at wrapper
  cases wrapper

theorem Keeps.trans {c'' : CHttpConnection} (first : Keeps c c') (second : Keeps c' c'') : Keeps c c'' where
  exchanges n e here := by
    obtain ⟨e', here', request, wrapper⟩ := first.exchanges n e here
    obtain ⟨e'', here'', request', wrapper'⟩ := second.exchanges n e' here'
    exact ⟨e'', here'', request'.trans request, fun none => wrapper (wrapper' none)⟩
  strand n mem := by
    obtain old | new := second.strand n mem
    · exact (first.strand n old).imp_right (second.wrapperOf n)
    · exact .inr new
  log n response mem := by
    obtain old | new := second.log n response mem
    · refine (first.log n response old).imp_right ?_
      rintro ⟨e, here, refusal⟩
      obtain ⟨e', here', request, wrapper⟩ := second.exchanges n e here
      exact ⟨e', here', fun none => request ▸ refusal (wrapper none)⟩
    · exact .inr new

theorem Refusing.keeps (refusing : Refusing c) (keeps : Keeps c c')
    (todo : ∀ n, c'.todo = some (.nextConnectionId n) ∨ c'.todo = some (.findHttpHandler n) →
      (c.todo = some (.nextConnectionId n) ∨ c.todo = some (.findHttpHandler n)) ∨
        ∃ e, c'.exchanges[n]? = some e ∧ e.request.isUpgrade = false) : Refusing c' where
  asked n asks := by
    obtain old | new := todo n asks
    · obtain ⟨e, here, plain⟩ := refusing.asked n old
      obtain ⟨e', here', request, _⟩ := keeps.exchanges n e here
      exact ⟨e', here', request ▸ plain⟩
    · exact new
  replying n mem := (keeps.strand n mem).elim (fun old => keeps.wrapperOf n (refusing.replying n old)) id
  answers n response mem := by
    obtain old | new := keeps.log n response mem
    · obtain ⟨e, here, refusal⟩ := refusing.answers n response old
      obtain ⟨e', here', request, wrapper⟩ := keeps.exchanges n e here
      exact ⟨e', here', fun none => request ▸ refusal (wrapper none)⟩
    · exact new

/-- Exchanges, strand and writes are as before. -/
theorem Keeps.of_same (exchanges : c'.exchanges = c.exchanges) (strand : c'.strand = c.strand)
    (log : c'.log = c.log) : Keeps c c' where
  exchanges _ e here := ⟨e, exchanges ▸ here, rfl, id⟩
  strand _ mem := .inl (strand ▸ mem)
  log _ _ mem := .inl (log ▸ mem)

theorem Keeps.doRead (keeps : Keeps c c') : Keeps c c'.doRead :=
  ⟨keeps.exchanges, keeps.strand, fun n response mem => by
    obtain old | new := List.mem_append.1 mem
    · exact keeps.log n response old
    · cases List.mem_singleton.1 new⟩

theorem Keeps.doWrite (keeps : Keeps c c') {response : CHttpResponse} {e : Exchange} (here : c'.exchanges[n]? = some e)
    (refusal : e.wrapper = none → response = e.request.refusal) : Keeps c (c'.doWrite n response) :=
  ⟨keeps.exchanges, keeps.strand, fun m r mem => by
    obtain old | new := List.mem_append.1 mem
    · exact keeps.log m r old
    · cases List.mem_singleton.1 new
      exact .inr ⟨e, here, refusal⟩⟩

theorem Keeps.record {event : Event} (keeps : Keeps c c') (other : ∀ n response, event ≠ .writeStarted n response) :
    Keeps c (c'.record [event]) :=
  ⟨keeps.exchanges, keeps.strand, fun n response mem => by
    obtain old | new := List.mem_append.1 mem
    · exact keeps.log n response old
    · exact absurd (List.mem_singleton.1 new).symm (other n response)⟩

theorem Keeps.doShutdown (keeps : Keeps c c') : Keeps c c'.doShutdown := by
  unfold CHttpConnection.doShutdown
  split
  · exact ⟨keeps.exchanges, keeps.strand, keeps.log⟩
  · exact keeps

theorem Keeps.append (keeps : Keeps c c') (e : Exchange) :
    Keeps c { c' with exchanges := c'.exchanges ++ [e] } where
  exchanges n x here := by
    obtain ⟨x', here', same⟩ := keeps.exchanges n x here
    exact ⟨x', by rw [List.getElem?_append_left (List.getElem?_eq_some_iff.1 here').1, here'], same⟩
  strand n mem := (keeps.strand n mem).imp_right fun found => by
    obtain ⟨w, found⟩ := Option.isSome_iff_exists.1 found
    obtain ⟨x, here, wrapper⟩ := wrapperOf_inv found
    have left : (c'.exchanges ++ [e])[n]? = c'.exchanges[n]? :=
      List.getElem?_append_left (List.getElem?_eq_some_iff.1 here).1
    rw [CHttpConnection.wrapperOf, left, here]
    exact Option.isSome_of_eq_some wrapper
  log n response mem := (keeps.log n response mem).imp_right fun ⟨x, here, refusal⟩ =>
    ⟨x, by rw [List.getElem?_append_left (List.getElem?_eq_some_iff.1 here).1, here], refusal⟩

/-- The request stays as it is, and so does having a wrapper. -/
theorem Keeps.modify {f : Exchange → Exchange} (request : ∀ e, (f e).request = e.request)
    (wrapper : ∀ e, (f e).wrapper = none → e.wrapper = none) : Keeps c (c.modify n f) where
  exchanges m e here := by
    have found : (c.modify n f).exchanges[m]? = some (if n = m then f e else e) := by
      rw [CHttpConnection.modify, List.getElem?_modify, here]
      rfl
    refine ⟨_, found, ?_⟩
    split
    · exact ⟨request e, wrapper e⟩
    · exact ⟨rfl, id⟩
  strand m mem := .inl mem
  log m response mem := .inl mem

theorem Keeps.replyFn (keeps : Keeps c c') (found : (c'.wrapperOf n).isSome = true) : Keeps c (c'.replyFn n) :=
  ⟨keeps.exchanges, fun m mem => by
    obtain old | new := List.mem_append.1 mem
    · exact keeps.strand m old
    · cases List.mem_singleton.1 new
      exact .inr found, keeps.log⟩

theorem setWrapper_keeps {w : CHttpWrapper} : Keeps c (c.setWrapper n w) :=
  .modify (fun _ => rfl) fun _ none => by cases none

theorem destroy_keeps : Keeps c (c.destroy n) := by
  unfold CHttpConnection.destroy
  split
  · exact .of_same rfl rfl rfl
  · next w found =>
    dsimp only
    split
    · exact setWrapper_keeps
    · have dead : Keeps c (c.setWrapper n { w with alive := false }) := setWrapper_keeps
      have bad := dead.trans (.modify (n := n) (f := fun e => { e with mHttpMsg := e.mHttpMsg.badRequest })
        (fun _ => rfl) fun _ => id)
      exact bad.replyFn (bad.wrapperOf n (Option.isSome_of_eq_some found))

theorem Keeps.release (keeps : Keeps c c') (n : Nat) : Keeps c (c'.release n) := by
  unfold CHttpConnection.release
  split
  · exact keeps
  · exact keeps.trans destroy_keeps

theorem Keeps.releaseJob (keeps : Keeps c c') (job : Job) : Keeps c (c'.releaseJob job) := by
  unfold CHttpConnection.releaseJob
  split
  · exact keeps
  · exact keeps.release _

theorem reply_keeps : Keeps c (c.reply n) := by
  unfold CHttpConnection.reply
  split
  · exact .of_same rfl rfl rfl
  · next w found =>
    split
    · exact (Keeps.of_same rfl rfl rfl).record nofun
    · have sent : Keeps c (c.setWrapper n { w with mResponseSent := true }) := setWrapper_keeps
      exact sent.replyFn (sent.wrapperOf n (Option.isSome_of_eq_some found))

theorem Refusing.of_same (refusing : Refusing c) (keeps : Keeps c c') (todo : c'.todo = c.todo) : Refusing c' :=
  refusing.keeps keeps fun n asks => .inl (by rwa [todo] at asks)

theorem doShutdown_todo : c.doShutdown.todo = c.todo := by
  unfold CHttpConnection.doShutdown
  split <;> rfl

theorem release_todo (n : Nat) : (c.release n).todo = c.todo := by
  unfold CHttpConnection.release destroy
  split
  · rfl
  · split
    · rfl
    · dsimp only
      split <;> rfl

theorem releaseJob_todo (job : Job) : (c.releaseJob job).todo = c.todo := by
  unfold CHttpConnection.releaseJob
  split
  · rfl
  · exact release_todo _

theorem reply_todo (n : Nat) : (c.reply n).todo = c.todo := by
  unfold CHttpConnection.reply
  split
  · rfl
  · split <;> rfl

theorem Performs.refusing {task : Task} {rest : List Task} (refusing : Refusing c) (queue : c.strand = task :: rest)
    (performs : Performs { c with strand := rest } task c') : Refusing c' := by
  have keeps : Keeps c { c with strand := rest } :=
    ⟨fun n e here => ⟨e, here, rfl, id⟩, fun n mem => .inl (queue ▸ List.mem_cons_of_mem _ mem), fun n response => .inl⟩
  cases performs with
  | ends => exact refusing.of_same keeps rfl
  | fails => exact refusing.of_same (keeps.record nofun) rfl
  | handshaken => exact refusing.of_same keeps.doRead rfl
  | upgrades => exact refusing.of_same (keeps.record nofun) rfl
  | @refuses request upgrade =>
    have here : (c.exchanges ++ [{ request := request }])[c.exchanges.length]? = some { request := request } :=
      List.getElem?_concat_length
    refine refusing.of_same ((keeps.append _).doWrite here fun _ => ?_) rfl
    rw [CHttpRequest.refusal, if_pos upgrade]
  | @asks request plain =>
    refine refusing.keeps ((keeps.append _).trans (.of_same rfl rfl rfl)) fun n asks => .inr ?_
    obtain rfl : n = c.exchanges.length := by
      obtain is | is := asks <;> cases is
      rfl
    exact ⟨_, List.getElem?_concat_length, plain⟩
  | @reads n =>
    have written : Keeps c (record { c with strand := rest } [.written n]) := keeps.record nofun
    exact refusing.of_same written.doRead rfl
  | @closes n =>
    have written : Keeps c (record { c with strand := rest } [.written n]) := keeps.record nofun
    exact refusing.of_same written.doShutdown doShutdown_todo
  | @sends n response built =>
    obtain ⟨w, found⟩ := Option.isSome_iff_exists.1 (refusing.replying n (queue ▸ List.mem_cons_self))
    obtain ⟨e, here, wrapper⟩ := wrapperOf_inv found
    refine refusing.of_same (keeps.doWrite here fun none => ?_) rfl
    rw [none] at wrapper
    cases wrapper
  | throws => exact refusing.of_same keeps rfl

theorem handle_refusing {stage : Stage} (refusing : Refusing c) (doing : c.todo = some stage) :
    Refusing (c.handle stage) := by
  have same : Keeps c c := .of_same rfl rfl rfl
  cases stage with
  | nextConnectionId n =>
    refine refusing.keeps ?_ fun m asks => .inl (.inl ?_)
    · have moved : Keeps c { c with impl := c.impl.nextConnectionId.1, todo := some (.findHttpHandler n) } :=
        .of_same rfl rfl rfl
      exact moved.trans (.modify
        (f := fun e => { e with mHttpMsg := { e.mHttpMsg with clientId := c.impl.nextConnectionId.2 } })
        (fun _ => rfl) fun _ => id)
    · obtain is | is := asks <;> cases is
      exact doing
  | findHttpHandler n =>
    obtain ⟨e, here, plain⟩ := refusing.asked n (.inr doing)
    simp only [CHttpConnection.handle, here]
    split
    · have moved : Keeps c { c with todo := none } := .of_same rfl rfl rfl
      refine refusing.keeps (moved.doWrite here fun _ => ?_) fun m asks => ?_
      · rw [CHttpRequest.refusal, if_neg (Bool.eq_false_iff.1 plain)]
      · obtain is | is := asks <;> cases is
    · next handler _ =>
      have moved : Keeps c { c with todo := some (.postCallback handler n) } := .of_same rfl rfl rfl
      refine refusing.keeps (moved.trans setWrapper_keeps) fun m asks => ?_
      obtain is | is := asks <;> cases is
  | postCallback handler n =>
    refine refusing.keeps (.of_same rfl rfl rfl) fun m asks => ?_
    obtain is | is := asks <;> cases is
  | leave n =>
    have moved : Keeps c { c with todo := none } := .of_same rfl rfl rfl
    refine refusing.keeps (moved.release n) fun m asks => ?_
    rw [CHttpConnection.handle, release_todo] at asks
    obtain is | is := asks <;> cases is

theorem step_refusing {l : Label} (refusing : Refusing c) (step : CHttpConnection.step c l = some c') : Refusing c' := by
  have same : Keeps c c := .of_same rfl rfl rfl
  cases step_steps step with
  | @complete _ _ _ op found =>
    refine refusing.of_same ⟨same.exchanges, fun n mem => .inl ?_, same.log⟩ rfl
    refine (List.mem_append.1 mem).resolve_right fun new => ?_
    cases op <;> cases List.mem_singleton.1 new
  | strand _ queue => exact (perform_performs _ _).refusing refusing queue
  | handle doing => exact handle_refusing refusing doing
  | reply => exact refusing.of_same reply_keeps (reply_todo _)
  | edit => exact refusing.of_same (.modify (fun _ => rfl) fun _ => id) rfl
  | @drop n kept =>
    have dropped : Keeps c { c with kept := c.kept.erase n } := .of_same rfl rfl rfl
    exact refusing.of_same (dropped.release n) (release_todo n)
  | @finish throws job running =>
    have ended : Keeps c (record { c with running := none } (if throws then [unhandled] else [])) := by
      have idle : Keeps c { c with running := none } := .of_same rfl rfl rfl
      split
      · exact idle.record nofun
      · exact .of_same rfl rfl (List.append_nil _)
    exact refusing.of_same (ended.releaseJob job) (releaseJob_todo job)
  | @clear job rest cleared =>
    have taken : Keeps c { c with cleared := rest } := .of_same rfl rfl rfl
    exact refusing.of_same (taken.releaseJob job) (releaseJob_todo job)
  | again => exact refusing
  | work | keep | post | stop | server | serverGone => exact refusing.of_same (.of_same rfl rfl rfl) rfl

theorem create_refusing (isSsl : Bool) (impl : CImpl) : Refusing (create isSsl impl) := by
  have start : Refusing { isSsl := isSsl, impl := impl } := by
    refine ⟨fun n asks => ?_, fun n mem => ?_, fun n response mem => ?_⟩
    · obtain is | is := asks <;> cases is
    · cases mem
    · cases mem
  have same : Keeps { isSsl := isSsl, impl := impl } { isSsl := isSsl, impl := impl } := .of_same rfl rfl rfl
  unfold create run
  split
  · exact start.of_same (.of_same rfl rfl rfl) rfl
  · exact start.of_same same.doRead rfl

/-- **Error bodies.** In every run, what is written for a request that got no wrapper is the 404 response. Its
body is a JSON text with exactly the two members that holds the message text, with the path in it, if and only
if there is no quote and no backslash in the path. -/
theorem error_body_iff {isSsl : Bool} {impl : CImpl} {ls : List Label}
    (run : system.exec (create isSsl impl) ls = some c) {e : Exchange} {response : CHttpResponse}
    (here : c.exchanges[n]? = some e) (refused : e.wrapper = none) (sent : .writeStarted n response ∈ c.log)
    (admitted : ∀ b ∈ e.request.target, 32 < b ∧ b < 127) :
    response.result = 404 ∧ (IsErrorBody response.body e.request.refusalText ↔
      quote ∉ codePoints e.request.path ∧ backslash ∉ codePoints e.request.path) := by
  have refusing : Refusing c :=
    System.invariant Refusing (create_refusing isSsl impl) (fun _ _ _ inv step => step_refusing inv step) run
  obtain ⟨_, same, refusal⟩ := refusing.answers n response sent
  rw [here] at same
  cases same
  rw [refusal refused]
  exact ⟨CHttpRequest.refusal_result, CHttpRequest.refusal_iff admitted⟩

/-- A request of a server without handlers, up to its response. -/
def unhandledRequest (target : String) : List Label := [.complete 0 none (get target), .strand, .handle, .handle]

theorem query_runs : (system.exec (create false {}) (unhandledRequest "/b?x=\"")).isSome = true := by decide +kernel

theorem query_read :
    (((system.exec (create false {}) (unhandledRequest "/b?x=\"")).get query_runs).exchanges[0]?).isSome = true := by
  decide +kernel

/-- What is not in the path does not matter. -/
theorem error_body_query :
    ∃ c e response, system.exec (create false {}) (unhandledRequest "/b?x=\"") = some c ∧ c.exchanges[0]? = some e ∧
      .writeStarted 0 response ∈ c.log ∧ IsErrorBody response.body e.request.refusalText := by
  have here := (Option.some_get query_read).symm
  have sent : .writeStarted 0 (get "/b?x=\"").notFound ∈
      ((system.exec (create false {}) (unhandledRequest "/b?x=\"")).get query_runs).log := by decide +kernel
  refine ⟨_, _, (get "/b?x=\"").notFound, System.exec_get query_runs, here, sent, ?_⟩
  exact (error_body_iff (System.exec_get query_runs) here (by decide +kernel) sent (by decide +kernel)).2.2
    (by decide +kernel)

theorem quoted_runs : (system.exec (create false {}) (unhandledRequest "/\"")).isSome = true := by decide +kernel

/-- A quote in the path ends the string in the middle of the message. -/
theorem error_body_quote :
    ∃ c response, system.exec (create false {}) (unhandledRequest "/\"") = some c ∧
      (∀ b ∈ str "/\"", 32 < b ∧ b < 127) ∧ .writeStarted 0 response ∈ c.log ∧ response.result = 404 ∧
      ¬ IsErrorBody response.body (str "No handler registered for '/\"'") := by
  refine ⟨_, (get "/\"").notFound, System.exec_get quoted_runs, by decide +kernel, by decide +kernel, by decide +kernel, ?_⟩
  rintro ⟨_, _, parsed, _⟩
  have none : (parse (codePoints (get "/\"").notFound.body)).isNone = true := by decide +kernel
  rw [parsed] at none
  cases none

end CHttpConnection

end Websockets
