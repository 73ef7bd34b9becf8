import Websockets.Server.System
import Websockets.Target.Query
import Websockets.Lib.Longest
import Websockets.Lib.Split

/-!
# Which registered uri a path belongs to

`UriMatches` compares bytes; what it decides is a relation between the segments of the two paths. All
uris that match one path begin it, so the longest of them is unique and no other registration matters.
What a client is told at its connect is the rest of its target behind that uri.
-/

namespace Websockets

open Lib Std

/-- A path cut at every `/`. -/
def segs (path : Bytes) : List Bytes := path.splitOn slash

variable {uri path target : Bytes} {impl impl' : CImpl}

/-- The path begins with the uri and goes on at a segment boundary, if at all. -/
theorem uriMatches_iff : uriMatches uri path = true ↔ uri ≠ [] ∧
    ∃ rest, path = uri ++ rest ∧ (rest = [] ∨ rest.head? = some slash ∨ uri.getLast? = some slash) := by
  unfold uriMatches
  split
  · next refused =>
    rw [Bool.or_eq_true, List.isEmpty_iff, bne_iff_ne] at refused
    refine iff_of_false (by simp) ?_
    rintro ⟨nonempty, rest, rfl, -⟩
    exact refused.elim nonempty (· List.take_left)
  · next compared =>
    rw [Bool.or_eq_true, List.isEmpty_iff, bne_iff_ne, not_or, not_not] at compared
    obtain ⟨nonempty, begins⟩ := compared
    have split : path = uri ++ path.drop uri.length := by
      conv_lhs => rw [← List.take_append_drop uri.length path, begins]
    have whole : path.length = uri.length ↔ path.drop uri.length = [] := by
      rw [List.drop_eq_nil_iff]
      have bound := congrArg List.length split
      rw [List.length_append] at bound
      omega
    rw [Bool.or_eq_true, Bool.or_eq_true, beq_iff_eq, beq_iff_eq, beq_iff_eq, whole, ← List.head?_drop, or_assoc]
    constructor
    · exact fun boundary => ⟨nonempty, _, split, boundary⟩
    · rintro ⟨-, rest, same, boundary⟩
      rwa [same, List.drop_left]

theorem uriMatches_prefix (matching : uriMatches uri path = true) : uri <+: path := by
  obtain ⟨-, rest, rfl, -⟩ := uriMatches_iff.1 matching
  exact List.prefix_append uri rest

theorem uriMatches_nil : uriMatches [] path = false := rfl

/-- A uri that does not end in `/` matches the paths that begin with its segments. -/
theorem uriMatches_segs (nonempty : uri ≠ []) (ends : uri.getLast? ≠ some slash) :
    uriMatches uri path = true ↔ segs uri <+: segs path := by
  rw [segs, segs, splitOn_prefix, uriMatches_iff]
  constructor
  · rintro ⟨-, rest, rfl, rfl | next | last⟩
    · exact .inl (List.append_nil uri)
    · obtain ⟨more, rfl⟩ := List.head?_eq_some_iff.1 next
      exact .inr ⟨more, rfl⟩
    · exact absurd last ends
  · rintro (rfl | ⟨more, rfl⟩)
    · exact ⟨nonempty, [], (List.append_nil _).symm, .inl rfl⟩
    · exact ⟨nonempty, slash :: more, rfl, .inr (.inl rfl)⟩

/-- One that does leaves something to follow. -/
theorem uriMatches_slash (u : Bytes) :
    uriMatches (u ++ [slash]) path = true ↔ segs u <+: segs path ∧ segs u ≠ segs path := by
  rw [segs, segs, splitOn_prefix, uriMatches_iff]
  constructor
  · rintro ⟨-, rest, rfl, -⟩
    rw [List.append_assoc, List.singleton_append]
    refine ⟨.inr ⟨rest, rfl⟩, fun same => ?_⟩
    have longer := congrArg List.length (splitOn_injective same)
    simp at longer
  · rintro ⟨rfl | ⟨more, rfl⟩, other⟩
    · exact absurd rfl other
    · exact ⟨by simp, more, by simp, .inr (.inr (by simp))⟩

namespace CImpl

/-! ## The longest match -/

theorem longestUriMatchLocked_eq (impl : CImpl) (path : Bytes) :
    impl.longestUriMatchLocked path = longestFrom (uriMatches · path) [] impl.mUris.keys := rfl

theorem mem_keys : uri ∈ impl.mUris.keys ↔ impl.mUris[uri]?.isSome = true := by
  rw [TreeMap.mem_keys, TreeMap.mem_iff_isSome_getElem?]

theorem longest_eq_nil : impl.longestUriMatchLocked path = [] ↔
    ∀ uri, impl.mUris[uri]?.isSome = true → uriMatches uri path = false := by
  rw [longestUriMatchLocked_eq, longestFrom_eq_nil (p := (uriMatches · path)) uriMatches_nil]
  simp only [mem_keys]

theorem longest_registered (found : impl.longestUriMatchLocked path ≠ []) :
    impl.mUris[impl.longestUriMatchLocked path]?.isSome = true ∧
      uriMatches (impl.longestUriMatchLocked path) path = true := by
  rw [← mem_keys]
  exact (longestFrom_mem _ _ _).resolve_left found

theorem prefix_longest (registered : impl.mUris[uri]?.isSome = true) (matching : uriMatches uri path = true) :
    uri <+: impl.longestUriMatchLocked path :=
  longestFrom_prefix (fun _ => uriMatches_prefix) (mem_keys.2 registered) matching

/-- Only the registered uris that match count. -/
theorem longest_congr (same : ∀ uri, uriMatches uri path = true →
      (impl'.mUris[uri]?.isSome = true ↔ impl.mUris[uri]?.isSome = true)) :
    impl'.longestUriMatchLocked path = impl.longestUriMatchLocked path := by
  refine longestFrom_congr (fun _ => uriMatches_prefix) fun uri matching => ?_
  rw [mem_keys, mem_keys]
  exact same uri matching

theorem addUri_registered (callbacks : CUriCallbacks) (other : Bytes) :
    (impl.addUri uri callbacks).mUris[other]?.isSome = true ↔ other = uri ∨ impl.mUris[other]?.isSome = true := by
  unfold addUri
  rw [TreeMap.getElem?_insert]
  simp only [LawfulEqCmp.compare_eq_iff_eq]
  split
  · next same => simp [same.symm]
  · next other => simp [Ne.symm other]

/-- A new uri that does not match, or is no longer than the longest match, changes nothing. -/
theorem longest_addUri (callbacks : CUriCallbacks)
    (idle : uriMatches uri path = false ∨ uri.length ≤ (impl.longestUriMatchLocked path).length) :
    (impl.addUri uri callbacks).longestUriMatchLocked path = impl.longestUriMatchLocked path := by
  rcases idle with none | shorter
  · refine longest_congr fun other matching => ?_
    rw [addUri_registered]
    refine or_iff_right ?_
    rintro rfl
    exact absurd (matching.symm.trans none) (by decide)
  · have forth : impl.longestUriMatchLocked path <+: (impl.addUri uri callbacks).longestUriMatchLocked path := by
      by_cases empty : impl.longestUriMatchLocked path = []
      · rw [empty]
        exact List.nil_prefix
      · obtain ⟨here, matching⟩ := longest_registered empty
        exact prefix_longest ((addUri_registered callbacks _).2 (.inr here)) matching
    refine (forth.eq_of_length_le ?_).symm
    by_cases empty : (impl.addUri uri callbacks).longestUriMatchLocked path = []
    · rw [empty]
      exact Nat.zero_le _
    · obtain ⟨here, matching⟩ := longest_registered empty
      rcases (addUri_registered callbacks _).1 here with new | old
      · rw [new]
        exact shorter
      · exact (prefix_longest old matching).length_le

theorem addUris_registered (regs : List (Bytes × CUriCallbacks)) (other : Bytes) :
    (regs.foldl (fun impl reg => impl.addUri reg.1 reg.2) impl).mUris[other]?.isSome = true ↔
      other ∈ regs.map Prod.fst ∨ impl.mUris[other]?.isSome = true := by
  induction regs generalizing impl with
  | nil => simp
  | cons reg regs ih =>
    rw [List.foldl_cons, ih, addUri_registered, List.map_cons, List.mem_cons, or_left_comm, or_assoc]

/-! ## The subscripts of `mUris` -/

/-- `mUris[uri]`: an absent uri is entered, with no callback set. -/
def subscriptUris (impl : CImpl) (uri : Bytes) : CImpl × CUriCallbacks :=
  match impl.mUris[uri]? with
  | some callbacks => (impl, callbacks)
  | none => (impl.addUri uri {}, {})

/-- `FindHttpHandler` with its subscript. -/
def findHttpHandlerSubscripting (impl : CImpl) (path : Bytes) : CImpl × Option Fn :=
  let matched := impl.longestUriMatchLocked path
  if matched.isEmpty then (impl, none)
  else
    let (impl, callbacks) := impl.subscriptUris matched
    (impl, callbacks.mOnRequestReceivedCb)

/-- `RegisterWsClient` under the lock, with its subscript. -/
def registerWsClientSubscripting (impl : CImpl) (session : Nat) (path : Bytes) (isSsl : Bool) :
    Option (CImpl × Registration) :=
  if impl.rejects then none
  else
    let (drawn, clientId) := impl.nextConnectionId
    let matchedUri := impl.longestUriMatchLocked path
    let entered := { drawn with mClients := impl.mClients.insert clientId ⟨session, matchedUri, isSsl, drawn.allocated⟩ }
    if matchedUri.isEmpty then
      some (entered.countReport, ⟨clientId, matchedUri, 0, impl.reports, impl.mClientCbs.mOnClientAddedCb, none⟩)
    else
      let uriCount := impl.uriCount matchedUri + 1
      let (read, callbacks) :=
        { entered with mUriCounts := impl.mUriCounts.insert matchedUri uriCount }.subscriptUris matchedUri
      some (read.countReport, ⟨clientId, matchedUri, uriCount, impl.reports, impl.mClientCbs.mOnClientAddedCb,
        callbacks.mOnConnectionChange⟩)

theorem subscriptUris_registered (registered : impl.mUris[uri]?.isSome = true) :
    ∃ callbacks, impl.mUris[uri]? = some callbacks ∧ impl.subscriptUris uri = (impl, callbacks) := by
  obtain ⟨callbacks, found⟩ := Option.isSome_iff_exists.1 registered
  exact ⟨callbacks, found, by rw [subscriptUris, found]⟩

theorem findHttpHandlerSubscripting_eq (impl : CImpl) (path : Bytes) :
    impl.findHttpHandlerSubscripting path = (impl, impl.findHttpHandler path) := by
  unfold findHttpHandlerSubscripting findHttpHandler
  by_cases empty : impl.longestUriMatchLocked path = []
  · simp [empty]
  · obtain ⟨callbacks, found, read⟩ := subscriptUris_registered (longest_registered empty).1
    simp [empty, read, found]

theorem registerWsClientSubscripting_eq (impl : CImpl) (session : Nat) (path : Bytes) (isSsl : Bool) :
    impl.registerWsClientSubscripting session path isSsl = impl.registerWsClientLocked session path isSsl := by
  unfold registerWsClientSubscripting registerWsClientLocked
  by_cases empty : impl.longestUriMatchLocked path = []
  · simp [empty, nextConnectionId, connectionChangeCb]
  · obtain ⟨callbacks, found, -⟩ := subscriptUris_registered (longest_registered empty).1
    simp [empty, subscriptUris, nextConnectionId, found, connectionChangeCb]

/-- The longest match of `path` among the registered uris. -/
structure LongestMatch (impl : CImpl) (path : Bytes) : Prop where
  empty : impl.longestUriMatchLocked path = [] ↔
    ∀ uri, impl.mUris[uri]?.isSome = true → uriMatches uri path = false
  registered : impl.longestUriMatchLocked path ≠ [] →
    impl.mUris[impl.longestUriMatchLocked path]?.isSome = true ∧
      uriMatches (impl.longestUriMatchLocked path) path = true
  /-- Every other one is a proper prefix of it. -/
  others : ∀ uri, impl.mUris[uri]?.isSome = true → uriMatches uri path = true →
    uri ≠ impl.longestUriMatchLocked path → uri <+: impl.longestUriMatchLocked path ∧
      uri.length < (impl.longestUriMatchLocked path).length
  order : ∀ regs regs' : List (Bytes × CUriCallbacks), regs.Perm regs' →
    (regs.foldl (fun impl reg => impl.addUri reg.1 reg.2) impl).longestUriMatchLocked path =
      (regs'.foldl (fun impl reg => impl.addUri reg.1 reg.2) impl).longestUriMatchLocked path
  added : ∀ uri callbacks,
    uriMatches uri path = false ∨ uri.length ≤ (impl.longestUriMatchLocked path).length →
    (impl.addUri uri callbacks).longestUriMatchLocked path = impl.longestUriMatchLocked path
  /-- The subscripts read what is there, so they enter no key. -/
  registers : ∀ session isSsl,
    impl.registerWsClientSubscripting session path isSsl = impl.registerWsClientLocked session path isSsl ∧
      ∀ impl' r, impl.registerWsClientSubscripting session path isSsl = some (impl', r) → impl'.mUris = impl.mUris
  finds : impl.findHttpHandlerSubscripting path = (impl, impl.findHttpHandler path)

theorem longestMatch (impl : CImpl) (path : Bytes) : LongestMatch impl path where
  empty := longest_eq_nil
  registered := longest_registered
  others uri here matching other :=
    have begins := prefix_longest here matching
    ⟨begins, Nat.lt_of_le_of_ne begins.length_le fun same => other (begins.eq_of_length same)⟩
  order regs regs' perm := by
    refine longest_congr fun uri _ => ?_
    rw [addUris_registered, addUris_registered, (perm.map Prod.fst).mem_iff]
  added _ callbacks := longest_addUri callbacks
  registers session isSsl := by
    refine ⟨registerWsClientSubscripting_eq impl session path isSsl, fun impl' r done => ?_⟩
    rw [registerWsClientSubscripting_eq] at done
    exact (registerWsClientLocked_inv done).mUris
  finds := findHttpHandlerSubscripting_eq impl path

end CImpl

/-- **Uris match by segments, and the longest match is unique.** -/
theorem uri_matching :
    (∀ uri path : Bytes, uri ≠ [] → uri.getLast? ≠ some slash → (uriMatches uri path = true ↔ segs uri <+: segs path)) ∧
      (∀ u path : Bytes, uriMatches (u ++ [slash]) path = true ↔ segs u <+: segs path ∧ segs u ≠ segs path) ∧
      ∀ (impl : CImpl) (path : Bytes), impl.LongestMatch path :=
  ⟨fun _ _ => uriMatches_segs, fun u _ => uriMatches_slash u, CImpl.longestMatch⟩

/-! ## What a client is told at its connect -/

/-- The path of a target begins it. -/
theorem path_begins (target : Bytes) : (parseTarget target).1 <+: target := by
  rw [parseTarget_eq]
  exact List.takeWhile_prefix _

namespace Server

variable {s : Server} {cbs : List Fn} {clientId : UInt32} {append : Bytes} {isSsl ssl : Bool} {k : Nat}

/-- The uri the rest is taken behind: the longest match, or the longest allowed one if none matches. -/
def appendBase (impl : CImpl) (path : Bytes) : Bytes :=
  if impl.longestUriMatchLocked path = [] then longestFrom (uriMatches · path) [] (impl.allowedUris.getD [])
  else impl.longestUriMatchLocked path

theorem appendBase_begins (impl : CImpl) (target : Bytes) : appendBase impl (parseTarget target).1 <+: target := by
  refine List.IsPrefix.trans ?_ (path_begins target)
  unfold appendBase
  split
  · rcases longestFrom_mem (uriMatches · (parseTarget target).1) [] (impl.allowedUris.getD []) with empty | ⟨-, matching⟩
    · rw [empty]
      exact List.nil_prefix
    · exact uriMatches_prefix matching
  · next found => exact uriMatches_prefix (CImpl.longest_registered found).2

theorem base_append (impl : CImpl) (target : Bytes) :
    appendBase impl (parseTarget target).1 ++
        impl.uriAppend (impl.longestUriMatchLocked (parseTarget target).1) (parseTarget target).1 target = target := by
  have base : impl.uriAppend (impl.longestUriMatchLocked (parseTarget target).1) (parseTarget target).1 target =
      target.drop (appendBase impl (parseTarget target).1).length := by
    have bound := (appendBase_begins impl target).length_le
    unfold appendBase at bound ⊢
    unfold CImpl.uriAppend substr
    simp only [List.isEmpty_iff]
    split at bound
    · next empty =>
      simp only [empty, if_true]
      rw [← longestFrom, Nat.min_eq_left bound]
    · next found =>
      simp only [found, if_false]
      rw [Nat.min_eq_left bound]
  rw [base]
  exact List.prefix_iff_eq_append.1 (appendBase_begins impl target)

theorem added_posted (posted : Action.postCallback cbs (.added clientId append ssl) ∈
      (s.registerWsClient k target isSsl).2) :
    append = s.impl.uriAppend (s.impl.longestUriMatchLocked (parseTarget target).1) (parseTarget target).1 target := by
  unfold registerWsClient at posted
  cases done : s.impl.registerWsClientLocked k (parseTarget target).1 isSsl with
  | none => simp [done] at posted
  | some result =>
    simp only [done, List.mem_cons, List.not_mem_nil, or_false, reduceCtorEq, Action.postCallback.injEq,
      Notice.added.injEq, and_false] at posted
    rw [posted.2.2.1, (CImpl.registerWsClientLocked_inv done).matchedUri]

/-- **The rest of the target.** What the added callback of an admitted client is told is the rest of the
target behind the longest matching uri exactly if a registered uri matches, or no list of allowed uris
is set. -/
theorem uri_append_iff (s : Server) (k : Nat) (target : Bytes) (isSsl : Bool)
    (admitted : s.impl.upgradeAllowed (parseTarget target).1 = true)
    (cbs : List Fn) (clientId : UInt32) (append : Bytes) (ssl : Bool)
    (posted : Action.postCallback cbs (.added clientId append ssl) ∈ (s.registerWsClient k target isSsl).2) :
    s.impl.longestUriMatchLocked (parseTarget target).1 ++ append = target ↔
      (∃ uri, s.impl.mUris[uri]?.isSome = true ∧ uriMatches uri (parseTarget target).1 = true) ∨
        s.impl.allowedUris = none := by
  rw [added_posted posted]
  have whole := base_append s.impl target
  by_cases found : s.impl.longestUriMatchLocked (parseTarget target).1 = []
  · have none : ¬ ∃ uri, s.impl.mUris[uri]?.isSome = true ∧ uriMatches uri (parseTarget target).1 = true := by
      rintro ⟨uri, here, matching⟩
      exact absurd (CImpl.longest_eq_nil.1 found uri here) (by simp [matching])
    rw [or_iff_right none]
    rw [appendBase, if_pos found] at whole
    cases allowed : s.impl.allowedUris with
    | none =>
      rw [allowed, found] at whole
      rw [found]
      exact iff_of_true whole rfl
    | some uris =>
      -- an allowed uri let the client in, so what follows it is shorter than the target
      rw [CImpl.upgradeAllowed, allowed, List.any_eq_true] at admitted
      obtain ⟨uri, mem, matching⟩ := admitted
      rw [allowed, Option.getD_some] at whole
      refine iff_of_false (fun full => ?_) (by simp)
      rw [found] at full
      have longer := congrArg List.length (full.trans whole.symm)
      rw [List.nil_append, List.length_append] at longer
      have empty : longestFrom (uriMatches · (parseTarget target).1) [] uris = [] :=
        List.length_eq_zero_iff.1 (by rw [found] at *; omega)
      have unmatched := (longestFrom_eq_nil (p := (uriMatches · (parseTarget target).1)) uriMatches_nil).1 empty uri mem
      exact absurd (matching.symm.trans unmatched) (by decide)
  · rw [appendBase, if_neg found] at whole
    exact iff_of_true whole (.inl ⟨_, CImpl.longest_registered found⟩)

/-- A server that has `/alpha` registered, with a list that lets every path in. -/
def alpha : Server :=
  { impl := CImpl.addUri { allowedUris := some [str "/"], mAcceptor := some 8080 } (str "/alpha") {} }

theorem uri_append_alpha :
    alpha.impl.longestUriMatchLocked (parseTarget (str "/alpha/extra?x=1")).1 ++ str "/extra?x=1" =
      str "/alpha/extra?x=1" :=
  (uri_append_iff alpha 0 (str "/alpha/extra?x=1") false (by decide) [] 1 (str "/extra?x=1") false (by decide)).2
    (.inl ⟨str "/alpha", by decide, by decide⟩)

/-- A server that lets clients in under `/a`, with no uri registered, and one client. -/
def allowedOnly : List Label :=
  [.api (.start 8080 { mOnClientAddedCb := some 7 }), .run 0 false, .run 0 false, .upgrade (str "/a/b") false,
    .complete 0 0 none noFrame, .strand 0, .run 1 false, .run 1 false]

/-- The client is told the rest behind the allowed uri, though no registered uri matches. -/
theorem uri_append_allowed :
    ∃ c, system.exec (create (some [str "/a"]) 1024) allowedOnly = some c ∧ c.shared.impl.mUris.keys = [] ∧
      .issued [7] (.added 1 (str "/b") false) ∈ c.shared.log ∧
      c.shared.impl.longestUriMatchLocked (parseTarget (str "/a/b")).1 ++ str "/b" ≠ str "/a/b" :=
  ⟨_, rfl, by decide, by decide, by decide⟩

end Server

end Websockets
