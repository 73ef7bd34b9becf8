import Websockets.Http.Phases

/-!
# One response per request

Whatever handlers do with the wrappers they are given, and whenever the work queue is stopped.
-/

namespace Websockets

open Lib

namespace CHttpConnection


variable {c : CHttpConnection} {n : Nat}

/-! ## The steps -/

structure Inv (c : CHttpConnection) : Prop where
  sane : Sane c
  counted : Counted c

/-- A function of the queue is destroyed that was still counted in `c`. -/
theorem Inv.releaseJob {c' : CHttpConnection} {job : Job} (inv : Inv c) (sane : Sane c')
    (refs : ∀ m, m ∈ c.refs ↔ job.wrapper = some m ∨ m ∈ c'.refs) (wrappers : ∀ m, c'.wrapperOf m = c.wrapperOf m) :
    Inv (c'.releaseJob job) := by
  unfold CHttpConnection.releaseJob
  cases wrapper : job.wrapper with
  | none =>
    refine ⟨sane, inv.counted.of_same (fun m => ?_) wrappers⟩
    rw [refs, wrapper]
    simp
  | some n =>
    have mem : n ∈ c.refs := (refs n).2 (.inl wrapper)
    have short : Short c' n := inv.counted.short mem (fun m other => ?_) wrappers
    · exact ⟨sane.release short.held, short.release⟩
    · rw [refs, wrapper]
      exact ⟨.inr, fun mem => mem.resolve_left fun is => other (Option.some.inj is).symm⟩

/-- What the application makes of a message. -/
def Label.message? : Label → Option HttpMsg
  | edit _ msg => some msg
  | _ => none

/-- Handlers leave a response code of at most three digits. -/
def EditOk (_ : CHttpConnection) (l : Label) : Prop := ∀ msg ∈ l.message?, msg.responseCode ≤ 999

instance (c : CHttpConnection) (l : Label) : Decidable (EditOk c l) :=
  inferInstanceAs (Decidable (∀ msg ∈ l.message?, msg.responseCode ≤ 999))

theorem step_inv {c c' : CHttpConnection} {l : Label} (inv : Inv c) (editOk : EditOk c l)
    (step : CHttpConnection.step c l = some c') : Inv c' := by
  obtain ⟨sane, counted⟩ := inv
  cases step_steps step with
  | @complete i ec request op found =>
    exact ⟨⟨sane.phase.complete found ec request, sane.kept, sane.ordered⟩, counted⟩
  | @strand task rest free queue =>
    have performs := perform_performs { c with strand := rest } task
    exact ⟨sane.perform free queue performs, Counted.alike (c := { c with strand := rest }) counted (performs.alike free)⟩
  | handle doing =>
    refine ⟨sane.handle doing fun n wrapper => ?_, counted.handle doing⟩
    refine (counted n).1 (mem_refs.2 (.inl ?_))
    rw [doing]
    exact wrapper
  | @work job rest idle _ queue =>
    refine ⟨⟨sane.phase, sane.kept, sane.ordered⟩, counted.of_same (fun m => ?_) fun m => rfl⟩
    simp only [mem_refs, queue, idle, List.filterMap_cons, Option.bind_some, Option.bind_none]
    cases job with
    | request handler n =>
      simp only [Job.wrapper, List.mem_cons, Option.some.injEq]
      grind
    | other => simp [Job.wrapper]
  | reply reaches => exact ⟨sane.reply (counted.held_of_reaches reaches), counted.reply _⟩
  | @keep n reaches =>
    refine ⟨⟨sane.phase, sane.kept, sane.ordered⟩, counted.of_same (fun m => ?_) fun m => rfl⟩
    have mem := (counted n).2 (counted.held_of_reaches reaches)
    rw [mem_refs] at mem
    simp only [mem_refs, List.mem_cons]
    grind
  | @edit n msg w found => exact ⟨sane.edit found (editOk msg rfl), counted.edit w⟩
  | @drop n kept =>
    have short : Short { c with kept := c.kept.erase n } n := by
      refine counted.short ?_ (fun m other => ?_) fun m => rfl
      · exact mem_refs.2 (.inr (.inr (.inr (.inr kept))))
      · simp only [mem_refs, List.mem_erase_of_ne other]
    have left : Sane { c with kept := c.kept.erase n } := ⟨sane.phase, sane.kept, sane.ordered⟩
    exact ⟨left.release short.held, short.release⟩
  | @finish throws job running =>
    have left : Sane (record { c with running := none } (if throws then [unhandled] else [])) := by
      have gone : Sane { c with running := none } := ⟨sane.phase, sane.kept, sane.ordered⟩
      split
      · exact gone.record rfl fun k same => by cases same
      · unfold record
        rw [List.append_nil]
        exact gone
    refine Inv.releaseJob ⟨sane, counted⟩ left (fun m => ?_) fun m => rfl
    simp only [mem_refs, running, record, Option.bind_some, Option.bind_none]
    grind
  | post =>
    refine ⟨⟨sane.phase, sane.kept, sane.ordered⟩, counted.of_same (fun m => ?_) fun m => rfl⟩
    simp only [mem_refs, CWorkQueue.post]
    split
    · exact Iff.rfl
    · simp [Job.wrapper]
  | again => exact ⟨sane, counted⟩
  | stop =>
    refine ⟨⟨sane.phase, sane.kept, sane.ordered⟩, counted.of_same (fun m => ?_) fun m => rfl⟩
    simp only [mem_refs, CWorkQueue.stop, List.filterMap_append, List.mem_append, List.filterMap_nil]
    grind
  | @clear job rest cleared =>
    refine Inv.releaseJob ⟨sane, counted⟩ ⟨sane.phase, sane.kept, sane.ordered⟩ (fun m => ?_) fun m => rfl
    simp only [mem_refs, cleared, List.filterMap_cons]
    cases job with
    | request handler n =>
      simp only [Job.wrapper, List.mem_cons, Option.some.injEq]
      grind
    | other => simp [Job.wrapper]
  | server => exact ⟨⟨sane.phase, sane.kept, sane.ordered⟩, counted⟩
  | serverGone => exact ⟨⟨sane.phase, sane.kept, sane.ordered⟩, counted⟩

theorem create_inv (isSsl : Bool) (impl : CImpl) : Inv (create isSsl impl) := by
  have idle : Idle { isSsl := isSsl, impl := impl } := ⟨List.not_mem_nil, rfl, rfl, rfl, rfl⟩
  have sane : Sane { isSsl := isSsl, impl := impl } :=
    ⟨idle.phase, (fun n e found => nomatch found), fun before n pre => by simp at pre⟩
  have counted : Counted { isSsl := isSsl, impl := impl } := by
    intro n
    refine iff_of_false List.not_mem_nil ?_
    rintro ⟨w, found, -⟩
    cases found
  unfold create run
  cases isSsl with
  | true =>
    refine ⟨⟨?_, sane.kept, sane.ordered⟩, counted⟩
    refine Phase.quiet idle.calm (Nat.le_refl _) (fun op mem n expects => ?_) (List.forall_mem_nil _)
    obtain rfl := List.mem_singleton.1 mem
    exact (Option.some.inj expects).symm
  | false => exact ⟨sane.doRead idle (fun k length => nomatch length), counted⟩

theorem run_inv {isSsl : Bool} {impl : CImpl} {ls : List Label} (run : system.exec (create isSsl impl) ls = some c)
    (editOk : system.Along EditOk (create isSsl impl) ls) : Inv c :=
  System.invariant_along Inv (create_inv isSsl impl) (fun _ _ _ inv ok step => step_inv inv ok step) run editOk

/-! ## The responses -/

/-- No reference to the wrapper of request `n` is left, and every handler posted to the strand has run. -/
structure Settled (c : CHttpConnection) (n : Nat) : Prop where
  released : n ∉ c.refs
  strand : c.strand = []
  todo : c.todo = none

/-- A server with one handler. -/
def served : CImpl := CImpl.addUri {} (str "/a") { mOnRequestReceivedCb := some 1 }

def get (target : String) : CHttpRequest := { target := str target, method := str "GET" }

/-- The first request's handler ends with an exception; the second request has none. -/
def twoRequests : List Label :=
  [.complete 0 none (get "/a?x=1"), .strand, .handle, .handle, .handle, .work, .handle, .finish true, .strand,
    .complete 0 none (get ""), .strand, .complete 0 none (get "/b"), .strand, .handle, .handle]

theorem twoRequests_runs : (system.exec (create false served) twoRequests).isSome = true := by decide

end CHttpConnection

end Websockets
