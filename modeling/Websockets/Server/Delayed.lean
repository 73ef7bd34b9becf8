import Websockets.Server.Counts

/-!
# Sends whose payload is built on demand

`SendMessage` and `SendContent` with a builder ask `AnyClients`, call the builder, and broadcast, with
anything in between the two critical sections. What they send is compared with an eager send that happens
at one instant of the call. The decision is taken on the counts and the broadcast goes by the entries; the
two agree but for the empty uri, which has clients and is not counted.
-/

namespace Websockets

open Std Lib

namespace CImpl

variable {impl impl' : CImpl} {fresh : Prop}

theorem decrementUriCountLocked_empty (uri : Bytes) :
    (impl.decrementUriCountLocked uri).1.mUriCounts[([] : Bytes)]? = impl.mUriCounts[([] : Bytes)]? := by
  unfold decrementUriCountLocked
  split
  · rfl
  · next nonempty =>
    have other : compare uri [] ≠ .eq := fun same =>
      nonempty (List.isEmpty_iff.2 (LawfulEqOrd.eq_of_compare same))
    split
    · rfl
    · rfl
    · rw [TreeMap.getElem?_insert, if_neg other]

/-- The empty uri is never counted. -/
theorem Change.empty_uncounted (change : Change fresh impl impl') (uncounted : impl.mUriCounts[([] : Bytes)]? = none) :
    impl'.mUriCounts[([] : Bytes)]? = none := by
  cases change with
  | start done =>
    unfold startLocked at done
    split at done
    · cases done
    · cases done
      exact uncounted
  | stop => exact TreeMap.getElem?_emptyc
  | remove present => exact (decrementUriCountLocked_empty _).trans uncounted
  | closed present => exact (decrementUriCountLocked_empty _).trans uncounted
  | @register _ _ _ _ r done free =>
    have registers := registerWsClientLocked_inv done
    rw [registers.mUriCounts]
    split
    · exact uncounted
    · next nonempty =>
      have other : compare r.matchedUri [] ≠ .eq := fun same =>
        nonempty (List.isEmpty_iff.2 (LawfulEqOrd.eq_of_compare same))
      rw [TreeMap.getElem?_insert, if_neg other, uncounted]
  | _ => exact uncounted

theorem anyClients_empty (uncounted : impl.mUriCounts[([] : Bytes)]? = none) : impl.anyClients (some []) = false := by
  simp only [anyClients, uncounted]

/-- Apart from the empty uri, `AnyClients` tells whether a broadcast reaches anyone. -/
theorem Counts.anyClients_iff (counts : impl.Counts) {uri : Option Bytes} (counted : uri ≠ some []) :
    impl.anyClients uri = true ↔ impl.broadcastTargets uri ≠ [] := by
  cases uri with
  | none =>
    have all : impl.broadcastTargets none = impl.mClients.toList.map fun e => e.2.session := by
      rw [broadcastTargets, List.filter_eq_self.2 fun _ _ => rfl]
    rw [all, anyClients, ← TreeMap.isEmpty_toList, Ne, List.map_eq_nil_iff, ← List.isEmpty_iff, Bool.not_eq_true']
    exact Bool.eq_false_iff
  | some uri =>
    have nonempty : uri ≠ [] := fun same => counted (by rw [same])
    rw [CImpl.anyClients_iff, broadcastTargets_ne_nil, counts uri nonempty]

end CImpl

namespace Server

open CImpl

/-! ## What a call does -/

/-- The send a piece makes. -/
def send? : Action → Option (Nat × SPayload)
  | .sessionSend k payload => some (k, payload)
  | _ => none

/-- What operation `i` sends in a step. -/
def sendOf (i : Nat) (c : Running) : Label → Option (Nat × SPayload)
  | .run j _ => if j = i then (head? c i).bind send? else none
  | _ => none

/-- Operation `i` calls the builder after a step, `AnyClients` having said yes. -/
def buildOf (i : Nat) (c : Running) : Label → Option Unit
  | .run j _ =>
    if j = i then
      match head? c i with
      | some (.anyClients uri _) => if c.shared.impl.anyClients uri then some () else none
      | _ => none
    else none
  | _ => none

/-- The sends of an eager call that happens here and now. -/
def eagerSends (c : Running) (uri : Option Bytes) (payload : SPayload) : List (Nat × SPayload) :=
  (c.shared.impl.broadcastTargets uri).map fun k => (k, payload)

/-- Operation `i` is in progress in `m`, a state of the run `ls` from `c`. -/
def Instant (c : Running) (i : Nat) (ls : List Label) (m : Running) : Prop :=
  ∃ before, before <+: ls ∧ system.exec c before = some m ∧ ¬ m.finished i

variable {c c' m m' : Running} {i : Nat} {ls : List Label} {l : Label} {uri : Option Bytes} {payload : SPayload}

/-- The sends that are left are made one by one. -/
theorem sends_run {o : Owner} (ks : List Nat) (task : c.tasks[i]? = some ⟨o, ks.map (.sessionSend · payload)⟩) :
    ∃ c', system.exec c (List.replicate ks.length (.run i false)) = some c' ∧ c'.finished i ∧
      system.collect (sendOf i) c (List.replicate ks.length (.run i false)) = ks.map fun k => (k, payload) := by
  induction ks generalizing c with
  | nil =>
    refine ⟨c, rfl, fun t found => ?_, rfl⟩
    rw [task] at found
    cases found
    rfl
  | cons k ks ih =>
    let after : Running :=
      ⟨c.shared.sessionPost k (.send payload), c.tasks.set i ⟨o, ks.map (.sessionSend · payload)⟩⟩
    have ran : system.step c (.run i false) = some after := step_run task rfl
    have left : after.tasks[i]? = some ⟨o, ks.map (.sessionSend · payload)⟩ :=
      List.getElem?_set_self (List.getElem?_eq_some_iff.1 task).1
    obtain ⟨c', run, finished, sends⟩ := ih left
    rw [List.length_cons, List.replicate_succ]
    refine ⟨c', by rw [System.exec_cons ran, run], finished, ?_⟩
    rw [System.collect_cons ran, sends]
    simp [sendOf, head?, task, send?]

/-- An eager call without interruption. -/
theorem eager_atomic (c : Running) (uri : Option Bytes) (payload : SPayload) :
    ∃ n c', system.exec c (.api (.broadcast uri payload) :: List.replicate n (.run c.tasks.length false)) = some c' ∧
      c'.finished c.tasks.length ∧
      system.collect (sendOf c.tasks.length) c
        (.api (.broadcast uri payload) :: List.replicate n (.run c.tasks.length false)) =
          eagerSends c uri payload := by
  have called : system.step c (.api (.broadcast uri payload)) = some (c.spawn .user [.broadcast uri payload]) := rfl
  have task : (c.spawn .user [.broadcast uri payload]).tasks[c.tasks.length]? = some ⟨.user, [.broadcast uri payload]⟩ :=
    List.getElem?_concat_length
  let after : Running := ⟨c.shared, (c.spawn .user [.broadcast uri payload]).tasks.set c.tasks.length
    ⟨.user, (c.shared.impl.broadcastTargets uri).map (.sessionSend · payload)⟩⟩
  have found : exec false (c.spawn .user [.broadcast uri payload]) c.tasks.length (.broadcast uri payload) =
      some (c.shared, (c.shared.impl.broadcastTargets uri).map (.sessionSend · payload)) := rfl
  have ran := step_run task found
  rw [List.append_nil] at ran
  change _ = some after at ran
  have left : after.tasks[c.tasks.length]? =
      some ⟨.user, (c.shared.impl.broadcastTargets uri).map (.sessionSend · payload)⟩ :=
    List.getElem?_set_self (List.getElem?_eq_some_iff.1 task).1
  obtain ⟨c', run, finished, sends⟩ := sends_run _ left
  refine ⟨(c.shared.impl.broadcastTargets uri).length + 1, c', ?_, finished, ?_⟩
  · rw [System.exec_cons called, List.replicate_succ, System.exec_cons ran, run]
  · rw [System.collect_cons called, List.replicate_succ, System.collect_cons ran, sends]
    simp [sendOf, head?, task, send?, eagerSends]

/-! ## The course of a delayed call -/

/-- How far operation `i`, a delayed call, has come in `m`, with what it has sent and built; `Was` are the states
it was in progress in. -/
inductive Course (i : Nat) (uri : Option Bytes) (payload : SPayload) (Was : Running → Prop) (m : Running) :
    List (Nat × SPayload) → List Unit → Prop where
  | asking (task : m.tasks[i]? = some ⟨.user, [.anyClients uri payload]⟩) : Course i uri payload Was m [] []
  | declined {past : Running} (task : m.tasks[i]? = some ⟨.user, []⟩) (was : Was past)
      (nobody : past.shared.impl.anyClients uri = false) : Course i uri payload Was m [] []
  | built {past : Running} (task : m.tasks[i]? = some ⟨.user, [.broadcast uri payload]⟩) (was : Was past)
      (somebody : past.shared.impl.anyClients uri = true) : Course i uri payload Was m [] [()]
  | sending {past point : Running} {sent : List (Nat × SPayload)} {left : List Nat}
      (task : m.tasks[i]? = some ⟨.user, left.map (.sessionSend · payload)⟩)
      (was : Was past) (somebody : past.shared.impl.anyClients uri = true)
      (at_point : Was point) (sends : sent ++ left.map (fun k => (k, payload)) = eagerSends point uri payload) :
      Course i uri payload Was m sent [()]

variable {Was Was' : Running → Prop} {sent : List (Nat × SPayload)} {builds : List Unit}

/-- A step of another operation leaves the call where it is. -/
theorem Course.kept (course : Course i uri payload Was m sent builds) (more : ∀ past, Was past → Was' past)
    (same : ∀ t, m.tasks[i]? = some t → m'.tasks[i]? = some t) : Course i uri payload Was' m' sent builds := by
  cases course with
  | asking task => exact .asking (same _ task)
  | declined task was nobody => exact .declined (same _ task) (more _ was) nobody
  | built task was somebody => exact .built (same _ task) (more _ was) somebody
  | sending task was somebody at_point sends =>
    exact .sending (same _ task) (more _ was) somebody (more _ at_point) sends

/-- The call makes a step. -/
theorem Course.run {throws : Bool} (course : Course i uri payload Was m sent builds) (more : ∀ past, Was past → Was' past)
    (now : Was' m) (step : Server.step m (.run i throws) = some m') :
    Course i uri payload Was' m' (sent ++ (sendOf i m (.run i throws)).toList)
      (builds ++ (buildOf i m (.run i throws)).toList) := by
  obtain ⟨o, a, rest, outs, ran⟩ := Tasks.run_inv step
  have after : m'.tasks[i]? = some ⟨o, outs ++ rest⟩ := by rw [ran.lookup, if_pos rfl]
  have action := ran.action
  cases course with
  | asking task =>
    cases ran.task.symm.trans task
    simp only [exec, Option.some.injEq, Prod.mk.injEq] at action
    rw [← action.2] at after
    cases any : m.shared.impl.anyClients uri with
    | true =>
      rw [any] at after
      simpa [sendOf, buildOf, head?, task, send?, any] using .built after now any
    | false =>
      rw [any] at after
      simpa [sendOf, buildOf, head?, task, send?, any] using .declined after now any
  | declined task was nobody => cases ran.task.symm.trans task
  | built task was somebody =>
    cases ran.task.symm.trans task
    simp only [exec, Option.some.injEq, Prod.mk.injEq] at action
    rw [← action.2, List.append_nil] at after
    simpa [sendOf, buildOf, head?, task, send?] using .sending after (more _ was) somebody now (List.nil_append _)
  | sending task was somebody at_point sends =>
    rename_i left
    cases left with
    | nil => cases ran.task.symm.trans task
    | cons k left =>
      cases ran.task.symm.trans task
      simp only [exec, Option.some.injEq, Prod.mk.injEq] at action
      rw [← action.2, List.nil_append] at after
      have next : sendOf i m (.run i throws) = some (k, payload) := by simp [sendOf, head?, task, send?]
      have none : buildOf i m (.run i throws) = none := by simp [buildOf, head?, task]
      rw [next, none, Option.toList_some, Option.toList_none, List.append_nil]
      refine .sending after (more _ was) somebody (more _ at_point) ?_
      rw [List.append_assoc]
      exact sends

theorem Instant.mono {more : List Label} (instant : Instant c i ls m) : Instant c i (ls ++ more) m := by
  obtain ⟨before, pre, run, unfinished⟩ := instant
  exact ⟨before, pre.trans (List.prefix_append _ _), run, unfinished⟩

theorem run_course {during : List Label}
    (run : system.exec (c.spawn .user [.anyClients uri payload]) during = some m) :
    Course c.tasks.length uri payload (Instant c c.tasks.length (.api (.delayed uri payload) :: during)) m
      (system.collect (sendOf c.tasks.length) (c.spawn .user [.anyClients uri payload]) during)
      (system.collect (buildOf c.tasks.length) (c.spawn .user [.anyClients uri payload]) during) := by
  have called : system.step c (.api (.delayed uri payload)) = some (c.spawn .user [.anyClients uri payload]) := rfl
  refine System.invariant_run (fun pre a => Course c.tasks.length uri payload
    (Instant c c.tasks.length (.api (.delayed uri payload) :: pre)) a
      (system.collect (sendOf c.tasks.length) (c.spawn .user [.anyClients uri payload]) pre)
      (system.collect (buildOf c.tasks.length) (c.spawn .user [.anyClients uri payload]) pre))
    ?_ ?_ run System.along_true
  · exact .asking List.getElem?_concat_length
  · intro pre a l b before course _ step
    rw [System.collect_snoc before, System.collect_snoc before]
    by_cases mine : ∃ throws, l = .run c.tasks.length throws
    · obtain ⟨throws, rfl⟩ := mine
      have now : Instant c c.tasks.length (.api (.delayed uri payload) :: pre) a := by
        refine ⟨_, List.prefix_refl _, by rw [System.exec_cons called, before], fun finished => ?_⟩
        obtain ⟨o, a, rest, outs, ran⟩ := Tasks.run_inv step
        cases finished _ ran.task
      exact course.run (fun past was => was.mono) now.mono step
    · have other : ∀ throws, l ≠ .run c.tasks.length throws := fun throws same => mine ⟨throws, same⟩
      have unseen : sendOf c.tasks.length a l = none ∧ buildOf c.tasks.length a l = none := by
        cases l with
        | run j throws =>
          have apart : j ≠ c.tasks.length := fun same => other throws (by rw [same])
          simp [sendOf, buildOf, apart]
        | _ => exact ⟨rfl, rfl⟩
      rw [unseen.1, unseen.2, Option.toList_none, Option.toList_none, List.append_nil, List.append_nil]
      exact course.kept (fun past was => was.mono) fun t task => step_task_kept step task other

/-- The delayed call does what an eager one does at an instant of it; the builder is called at most once, and only
if the call could reach somebody. -/
structure LikeEager (c : Running) (uri : Option Bytes) (payload : SPayload) (during : List Label) : Prop where
  sends : ∃ m, Instant c c.tasks.length (.api (.delayed uri payload) :: during) m ∧
    system.collect (sendOf c.tasks.length) c (.api (.delayed uri payload) :: during) = eagerSends m uri payload
  once : (system.collect (buildOf c.tasks.length) c (.api (.delayed uri payload) :: during)).length ≤ 1
  needed : (∀ m, Instant c c.tasks.length (.api (.delayed uri payload) :: during) m →
      m.shared.impl.broadcastTargets uri = []) →
    system.collect (buildOf c.tasks.length) c (.api (.delayed uri payload) :: during) = []

theorem run_uncounted {allowedUris : Option (List Bytes)} {maxSessionBacklog : Nat}
    (run : system.exec (create allowedUris maxSessionBacklog) ls = some c) :
    c.shared.impl.mUriCounts[([] : Bytes)]? = none := by
  refine System.invariant (fun c => c.shared.impl.mUriCounts[([] : Bytes)]? = none) TreeMap.getElem?_emptyc ?_ run
  intro a l b uncounted step
  have change : Change False a.shared.impl b.shared.impl := step_change step fun holds => by cases holds
  exact change.empty_uncounted uncounted

theorem run_allocated_le (run : system.exec c ls = some c') :
    c.shared.impl.allocated ≤ c'.shared.impl.allocated :=
  System.invariant (fun a => c.shared.impl.allocated ≤ a.shared.impl.allocated) (Nat.le_refl _)
    (fun _ _ _ le step => le.trans (step_allocated_le step)) run

/-- **Delayed and eager sends agree.** In every run that drew fewer than 2^32 - 1 ids, a delayed call that has
returned was like an eager one exactly if it was not for the empty uri, or at some instant of it every client
had a uri. -/
theorem delayed_iff {allowedUris : Option (List Bytes)} {maxSessionBacklog : Nat} {before during : List Label}
    (reached : system.exec (create allowedUris maxSessionBacklog) before = some c)
    (called : system.exec c (.api (.delayed uri payload) :: during) = some c')
    (returned : c'.finished c.tasks.length) (bound : c'.shared.impl.allocated < 2 ^ 32 - 1) :
    LikeEager c uri payload during ↔ (uri = some [] →
      ∃ m, Instant c c.tasks.length (.api (.delayed uri payload) :: during) m ∧
        m.shared.impl.broadcastTargets (some []) = []) := by
  have call : system.step c (.api (.delayed uri payload)) = some (c.spawn .user [.anyClients uri payload]) := rfl
  -- at every instant the registry is in order
  have sound : ∀ m, Instant c c.tasks.length (.api (.delayed uri payload) :: during) m →
      m.shared.impl.Counts ∧ m.shared.impl.mUriCounts[([] : Bytes)]? = none := by
    rintro m ⟨pre, ⟨rest, eq⟩, run, -⟩
    have whole : system.exec (create allowedUris maxSessionBacklog) (before ++ pre) = some m := by
      rw [System.exec_append, reached]
      exact run
    have later : system.exec m rest = some c' := by
      rw [← eq, System.exec_append, run] at called
      exact called
    exact ⟨(run_counted whole).counts (Nat.lt_of_le_of_lt (run_allocated_le later) bound), run_uncounted whole⟩
  have course := run_course (by rwa [System.exec_cons call] at called)
  have sends : system.collect (sendOf c.tasks.length) c (.api (.delayed uri payload) :: during) =
      system.collect (sendOf c.tasks.length) (c.spawn .user [.anyClients uri payload]) during := System.collect_cons call
  have builds : system.collect (buildOf c.tasks.length) c (.api (.delayed uri payload) :: during) =
      system.collect (buildOf c.tasks.length) (c.spawn .user [.anyClients uri payload]) during := System.collect_cons call
  rw [← sends, ← builds] at course
  generalize sends_eq : system.collect (sendOf c.tasks.length) c (.api (.delayed uri payload) :: during) = sent at course
  generalize builds_eq : system.collect (buildOf c.tasks.length) c (.api (.delayed uri payload) :: during) = built at course
  cases course with
  | asking task => cases returned _ task
  | built task was somebody => cases returned _ task
  | @declined past task was nobody =>
    constructor
    · rintro ⟨⟨m, instant, same⟩, -, -⟩ rfl
      rw [sends_eq] at same
      exact ⟨m, instant, List.map_eq_nil_iff.1 same.symm⟩
    · intro agrees
      refine ⟨?_, by rw [builds_eq]; exact Nat.zero_le _, fun _ => builds_eq⟩
      by_cases empty : uri = some []
      · obtain ⟨m, instant, none⟩ := agrees empty
        exact ⟨m, instant, by rw [sends_eq, empty, eagerSends, none]; rfl⟩
      · have none : past.shared.impl.broadcastTargets uri = [] := by
          by_contra reaches
          rw [((sound past was).1.anyClients_iff empty).2 reaches] at nobody
          cases nobody
        exact ⟨past, was, by rw [sends_eq, eagerSends, none]; rfl⟩
  | @sending past point _ left task was somebody at_point whole =>
    have counted : uri ≠ some [] := by
      rintro rfl
      rw [anyClients_empty (sound past was).2] at somebody
      cases somebody
    have done : left = [] := List.map_eq_nil_iff.1 (returned _ task)
    rw [done, List.map_nil, List.append_nil] at whole
    refine iff_of_true ⟨⟨point, at_point, sends_eq.trans whole⟩, by rw [builds_eq]; exact Nat.le_refl _, ?_⟩
      fun empty => absurd empty counted
    intro nobody
    exact absurd (nobody past was) (((sound past was).1.anyClients_iff counted).1 somebody)

theorem oneClient_runs : (system.exec (create none 1024) oneClient).isSome = true := by decide

def onA : Running := (system.exec (create none 1024) oneClient).get oneClient_runs

def uriCall : List Label := [.run 3 false, .run 3 false, .run 3 false]

theorem uriCall_runs :
    (system.exec onA (.api (.delayed (some (str "/a")) (makeTextPayload (str "hi"))) :: uriCall)).isSome = true := by
  decide

/-- The client of `/a` gets the payload. -/
theorem delayed_oneClient :
    system.exec (create none 1024) oneClient = some onA ∧
      LikeEager onA (some (str "/a")) (makeTextPayload (str "hi")) uriCall :=
  ⟨System.exec_get oneClient_runs, (delayed_iff (System.exec_get oneClient_runs) (System.exec_get uriCall_runs)
    (by decide) (by decide)).2 fun empty => by cases empty⟩

/-- A server without uris, and one client. -/
def oneUnmatched : List Label :=
  [.api (.start 8080 {}), .run 0 false, .run 0 false, .upgrade (str "/") false, .complete 0 0 none noFrame, .strand 0,
    .run 1 false]

theorem oneUnmatched_runs : (system.exec (create none 1024) oneUnmatched).isSome = true := by decide

def unmatched : Running := (system.exec (create none 1024) oneUnmatched).get oneUnmatched_runs

def emptyCall : List Label := [.api (.delayed (some []) (makeTextPayload (str "hi"))), .run 2 false]

theorem emptyCall_runs : (system.exec unmatched emptyCall).isSome = true := by decide

/-- With the empty uri an eager send reaches the client at every instant of the call, and the delayed one sends
nothing. -/
theorem delayed_empty_uri :
    system.exec (create none 1024) oneUnmatched = some unmatched ∧ unmatched.shared.impl.allocated = 1 ∧
      (∃ c', system.exec unmatched emptyCall = some c' ∧ c'.finished 2) ∧
      ¬ LikeEager unmatched (some []) (makeTextPayload (str "hi")) [.run 2 false] := by
  refine ⟨System.exec_get oneUnmatched_runs, by decide, ⟨_, System.exec_get emptyCall_runs, by decide⟩, ?_⟩
  rintro ⟨⟨m, ⟨before, pre, run, unfinished⟩, same⟩, -, -⟩
  have instants : ∀ n < 3, ((system.exec unmatched (emptyCall.take n)).all fun m =>
      decide (m.finished 2 ∨ eagerSends m (some []) (makeTextPayload (str "hi")) ≠ [])) = true := by decide
  have none : system.collect (sendOf 2) unmatched emptyCall = [] := by decide
  have first : before = emptyCall.take before.length := List.prefix_iff_eq_take.1 pre
  have instant := instants before.length (Nat.lt_succ_of_le pre.length_le)
  rw [← first, run] at instant
  obtain finished | reaches := of_decide_eq_true instant
  · exact unfinished finished
  · exact reaches (same.symm.trans none)

end Server

end Websockets
