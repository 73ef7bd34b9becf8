import Websockets.Client.Endpoint
import Websockets.Server.Watched

/-!
# From one end of a connection to the other

A client and a server run side by side; session `k` of the client and session `j` of the server are the two ends of
a connection, a wire in each direction between them. Beast over TCP: what a session passes to `async_write` is put on
its wire, a read of the other end succeeds only with what comes next from it, a wire may be cut at any point, and
after an error on a stream its completions are errors. The other sessions and everything else have an arbitrary
environment. `sent` and `answered` record history: the payloads the two sessions have accepted.
-/

namespace Websockets

open Lib

structure Connection where
  client : Client.Running
  server : Watched
  up : Wire Frame := {}
  down : Wire Frame := {}
  sent : List SOutgoingMessage := []
  answered : List SPayload := []

namespace Connection

inductive Label where
  | client (l : Client.Label)
  | server (l : Server.Label)
  | cutUp (n : Nat)
  | cutDown (n : Nat)

/-- The wire after a step in which a read takes `frame`, if it does. -/
def takes (wire : Wire Frame) : Option Frame → Option (Wire Frame)
  | none => some wire
  | some frame => wire.take frame

/-- The wire after its writer has gone on from `before` to `after`. -/
def puts (wire : Wire Frame) (before after : List Frame) : Wire Frame := wire.put (after.drop before.length)

def stepClient (k : Nat) (w : Connection) (l : Client.Label) : Option Connection :=
  match takes w.down (Client.readsAt k w.client l), Client.step w.client l with
  | some down, some c => some { w with
      client := c
      up := puts w.up (Client.writtenAt k w.client) (Client.writtenAt k c)
      down := down
      sent := w.sent ++ (Client.acceptsAt k w.client l).toList }
  | _, _ => none

def stepServer (j : Nat) (w : Connection) (l : Server.Label) : Option Connection :=
  match takes w.up (Server.readsAt j w.server.running l), w.server.step l with
  | some up, some c => some { w with
      server := c
      up := up
      down := puts w.down (Server.writtenAt j w.server.running) (Server.writtenAt j c.running)
      answered := w.answered ++ (Server.acceptsAt j w.server.running l).toList }
  | _, _ => none

def step (k j : Nat) (w : Connection) : Label → Option Connection
  | .client l => if Client.BeastOk w.client l then w.stepClient k l else none
  | .server l => if Server.BeastOk w.server.running l then w.stepServer j l else none
  | .cutUp n => some { w with up := w.up.cut n }
  | .cutDown n => some { w with down := w.down.cut n }

/-- Every interleaving of the client, the server and what happens to the wires. -/
def system (k j : Nat) : Lib.System Connection Label := ⟨step k j⟩

def create (sslContext : Bool) (handshakeTimeoutS : Nat) (allowedUris : Option (List Bytes)) (maxSessionBacklog : Nat) :
    Connection where
  client := Client.create sslContext handshakeTimeoutS
  server := Watched.create allowedUris maxSessionBacklog

/-- The global callbacks of the server are set, to `f` for messages and to `g` for contents, while it has session `j`. -/
def ServerOk (f g : Fn) (j : Nat) (w : Connection) (_ : Label) : Prop := Server.Listens f g j w.server.running

/-- So are the callbacks of the client, while it has session `k`. -/
def ClientOk (f g : Fn) (k : Nat) (w : Connection) (_ : Label) : Prop := Client.Listens f g k w.client

instance (f g : Fn) (j : Nat) (w : Connection) (l : Label) : Decidable (ServerOk f g j w l) :=
  inferInstanceAs (Decidable (Server.Listens f g j w.server.running))

instance (f g : Fn) (k : Nat) (w : Connection) (l : Label) : Decidable (ClientOk f g k w l) :=
  inferInstanceAs (Decidable (Client.Listens f g k w.client))

/-- The frame that the strand of the server's session handles in a step. -/
def handles (j : Nat) (w : Connection) : Label → Option Frame
  | .server l => Server.handlesAt j w.server.running l
  | .client _ | .cutUp _ | .cutDown _ => none

/-- Both ends and the wires between them, with the frames the server's session has handled. -/
structure Linked (k j : Nat) (w : Connection) (handled : List Frame) : Prop where
  spoken : Client.Spoken w.client
  client : Client.Endpoint k w.client w.sent w.down.passed
  awaited : Server.Awaited w.server.running
  server : Server.Endpoint j w.server.running w.answered w.up.passed handled
  up : w.up.Carries (Client.writtenAt k w.client)
  down : w.down.Carries (Server.writtenAt j w.server.running)

variable {k j : Nat} {w w' : Connection} {l : Label} {handled : List Frame} {f g : Fn}

theorem takes_carries {wire wire' : Wire Frame} {frame : Option Frame} {written : List Frame}
    (taken : takes wire frame = some wire') (carries : wire.Carries written) :
    wire'.Carries written ∧ wire'.passed = wire.passed ++ frame.toList := by
  cases frame with
  | none =>
    cases taken
    exact ⟨carries, (List.append_nil _).symm⟩
  | some frame => exact ⟨carries.take taken, (Wire.take_inv taken).2.1⟩

theorem puts_carries {wire : Wire Frame} {before after : List Frame} (grows : before <+: after)
    (carries : wire.Carries before) :
    (puts wire before after).Carries after ∧ (puts wire before after).passed = wire.passed := by
  obtain ⟨more, rfl⟩ := grows
  rw [puts, List.drop_left]
  refine ⟨carries.put more, ?_⟩
  unfold Wire.put
  split <;> rfl

theorem stepClient_inv {l : Client.Label} (step : w.stepClient k l = some w') :
    ∃ down c, takes w.down (Client.readsAt k w.client l) = some down ∧ Client.step w.client l = some c ∧
      w' = { w with
        client := c
        up := puts w.up (Client.writtenAt k w.client) (Client.writtenAt k c)
        down := down
        sent := w.sent ++ (Client.acceptsAt k w.client l).toList } := by
  unfold stepClient at step
  split at step
  · next down c taken done =>
    cases step
    exact ⟨down, c, taken, done, rfl⟩
  · cases step

theorem stepServer_inv {l : Server.Label} (step : w.stepServer j l = some w') :
    ∃ up c, takes w.up (Server.readsAt j w.server.running l) = some up ∧ w.server.step l = some c ∧
      w' = { w with
        server := c
        up := up
        down := puts w.down (Server.writtenAt j w.server.running) (Server.writtenAt j c.running)
        answered := w.answered ++ (Server.acceptsAt j w.server.running l).toList } := by
  unfold stepServer at step
  split at step
  · next up c taken done =>
    cases step
    exact ⟨up, c, taken, done, rfl⟩
  · cases step

/-- **What a step of the connection is**: one of the client, one of the server, or a cut. -/
theorem step_cases (step : step k j w l = some w') :
    (∃ l', l = .client l' ∧ Client.BeastOk w.client l' ∧ w.stepClient k l' = some w') ∨
      (∃ l', l = .server l' ∧ Server.BeastOk w.server.running l' ∧ w.stepServer j l' = some w') ∨
      (∃ n, l = .cutUp n ∧ w' = { w with up := w.up.cut n }) ∨ ∃ n, l = .cutDown n ∧ w' = { w with down := w.down.cut n } := by
  cases l with
  | client l' =>
    simp only [Connection.step] at step
    split at step
    · next beast => exact .inl ⟨l', rfl, beast, step⟩
    · cases step
  | server l' =>
    simp only [Connection.step] at step
    split at step
    · next beast => exact .inr (.inl ⟨l', rfl, beast, step⟩)
    · cases step
  | cutUp n =>
    cases step
    exact .inr (.inr (.inl ⟨n, rfl, rfl⟩))
  | cutDown n =>
    cases step
    exact .inr (.inr (.inr ⟨n, rfl, rfl⟩))

theorem Linked.stepClient {l : Client.Label} (linked : Linked k j w handled) (beast : Client.BeastOk w.client l)
    (step : w.stepClient k l = some w') : Linked k j w' handled := by
  obtain ⟨down, c, taken, done, rfl⟩ := stepClient_inv step
  obtain ⟨downCarries, downPassed⟩ := takes_carries taken linked.down
  obtain ⟨upCarries, upPassed⟩ := puts_carries (Client.step_written done linked.spoken k) linked.up
  refine ⟨Client.step_spoken done beast linked.spoken, ?_, linked.awaited, ?_, upCarries, downCarries⟩
  · rw [downPassed]
    exact Client.step_endpoint done linked.spoken linked.client
  · rw [upPassed]
    exact linked.server

theorem Linked.stepServer {l : Server.Label} (linked : Linked k j w handled) (beast : Server.BeastOk w.server.running l)
    (step : w.stepServer j l = some w') :
    Linked k j w' (handled ++ (Server.handlesAt j w.server.running l).toList) := by
  obtain ⟨up, c, taken, done, rfl⟩ := stepServer_inv step
  have moved := Server.step_running done
  obtain ⟨upCarries, upPassed⟩ := takes_carries taken linked.up
  obtain ⟨downCarries, downPassed⟩ := puts_carries (Server.step_written moved linked.awaited linked.server) linked.down
  refine ⟨linked.spoken, ?_, Server.step_awaited moved linked.awaited, ?_, upCarries, downCarries⟩
  · rw [downPassed]
    exact linked.client
  · rw [upPassed]
    exact Server.step_endpoint moved linked.awaited beast linked.server

/-- A cut loses frames on their way, and no end notices. -/
theorem step_linked (step : step k j w l = some w') (linked : Linked k j w handled) :
    Linked k j w' (handled ++ (handles j w l).toList) := by
  rcases step_cases step with ⟨l', rfl, beast, step⟩ | ⟨l', rfl, beast, step⟩ | ⟨n, rfl, rfl⟩ | ⟨n, rfl, rfl⟩
  · rw [handles, Option.toList_none, List.append_nil]
    exact linked.stepClient beast step
  · exact linked.stepServer beast step
  · rw [handles, Option.toList_none, List.append_nil]
    exact ⟨linked.spoken, linked.client, linked.awaited, linked.server, linked.up.cut n, linked.down⟩
  · rw [handles, Option.toList_none, List.append_nil]
    exact ⟨linked.spoken, linked.client, linked.awaited, linked.server, linked.up, linked.down.cut n⟩

theorem create_linked (sslContext : Bool) (handshakeTimeoutS : Nat) (allowedUris : Option (List Bytes))
    (maxSessionBacklog : Nat) : Linked k j (create sslContext handshakeTimeoutS allowedUris maxSessionBacklog) [] where
  spoken := Client.create_spoken sslContext handshakeTimeoutS
  client := ⟨(fun _ found => nomatch found), fun _ => ⟨rfl, rfl⟩⟩
  awaited := Server.create_awaited allowedUris maxSessionBacklog
  server := ⟨(fun _ found => nomatch found), fun _ => ⟨rfl, rfl, rfl⟩⟩
  up := Wire.carries_empty
  down := Wire.carries_empty

/-! ## From the client to the server -/

/-- The connection up to the global callbacks of the server. -/
structure Upward (f g : Fn) (k j : Nat) (w : Connection) (handled : List Frame) : Prop where
  linked : Linked k j w handled
  queued : Server.Queued w.server
  inbound : Server.Inbound f g j w.server handled

/-- What the strand is about to post was read by a session, so there is one. -/
theorem Upward.set (upward : Upward f g k j w handled) (ok : ServerOk f g j w l) (i : Nat) (a : Action)
    (pending : w.server.running.At i (.strand j) a) (brings : Server.brings f g a ≠ none) :
    w.server.running.shared.impl.mClientCbs.mOnClientMessageReceivedCb = some f ∧
      w.server.running.shared.impl.mClientCbs.mOnClientContentReceivedCb = some g := by
  refine ok.resolve_left fun gone => ?_
  obtain ⟨x, seen⟩ := Option.ne_none_iff_exists'.1 brings
  obtain ⟨posted, whole, -⟩ := upward.inbound.carries
  rw [(upward.linked.server.absent gone).2.2, List.map_nil, List.append_eq_nil_iff] at whole
  have here := Tasks.mem_pendingOf pending seen
  rw [whole.2] at here
  cases here

theorem step_upward (step : step k j w l = some w') (ok : ServerOk f g j w l) (upward : Upward f g k j w handled) :
    Upward f g k j w' (handled ++ (handles j w l).toList) := by
  have linked := step_linked step upward.linked
  rcases step_cases step with ⟨l', rfl, beast, step⟩ | ⟨l', rfl, beast, step⟩ | ⟨n, rfl, rfl⟩ | ⟨n, rfl, rfl⟩
  · obtain ⟨down, c, taken, done, rfl⟩ := stepClient_inv step
    rw [handles, Option.toList_none, List.append_nil] at linked ⊢
    exact ⟨linked, upward.queued, upward.inbound⟩
  · obtain ⟨up, c, taken, done, rfl⟩ := stepServer_inv step
    exact ⟨linked, Server.step_queued done upward.queued,
      Server.step_inbound done upward.queued upward.inbound (upward.set ok)⟩
  · rw [handles, Option.toList_none, List.append_nil] at linked ⊢
    exact ⟨linked, upward.queued, upward.inbound⟩
  · rw [handles, Option.toList_none, List.append_nil] at linked ⊢
    exact ⟨linked, upward.queued, upward.inbound⟩

theorem Upward.delivery (upward : Upward f g k j w handled) :
    w.server.received j <+: w.sent.map fun message => invocation f g (frameOf message) := by
  have wire := upward.linked.up.passed_prefix.trans upward.linked.client.written_prefix
  have frames := (upward.linked.server.handled_prefix.trans wire).map (invocation f g)
  rw [List.map_map] at frames
  exact upward.inbound.received_prefix.trans frames

/-! ## From the server to the client -/

/-- The connection up to the callbacks of the client. -/
structure Downward (f g : Fn) (k j : Nat) (w : Connection) : Prop where
  linked : ∃ handled, Linked k j w handled
  receives : Client.Receives f g k w.client

theorem step_downward (step : step k j w l = some w') (ok : ClientOk f g k w l) (downward : Downward f g k j w) :
    Downward f g k j w' := by
  obtain ⟨handled, linked⟩ := downward.linked
  refine ⟨⟨_, step_linked step linked⟩, ?_⟩
  rcases step_cases step with ⟨l', rfl, beast, step⟩ | ⟨l', rfl, beast, step⟩ | ⟨n, rfl, rfl⟩ | ⟨n, rfl, rfl⟩
  · obtain ⟨down, c, taken, done, rfl⟩ := stepClient_inv step
    exact Client.step_receives done beast ok downward.receives
  · obtain ⟨up, c, taken, done, rfl⟩ := stepServer_inv step
    exact downward.receives
  · exact downward.receives
  · exact downward.receives

theorem Downward.delivery (downward : Downward f g k j w) :
    Client.received k w.client.shared.log <+: w.answered.map fun payload => invocation f g (frameOf payload) := by
  obtain ⟨handled, linked⟩ := downward.linked
  have wire := linked.down.passed_prefix.trans linked.server.written_prefix
  have frames := ((linked.client.read_prefix linked.spoken).trans wire).map (invocation f g)
  rw [List.map_map] at frames
  exact downward.receives.received_prefix.trans frames

/-- A client that sets its callbacks and connects, -/
def connects : List Client.Label :=
  ([.api (.registerMessageCallback (some 3)), .run 0 false, .api (.registerContentCallback (some 4)), .run 1 false,
    .api (.asyncConnect [] 80 [])] : List Client.Label) ++ Client.runs 2 4 ++
  ([.strand 0 none, .complete 0 0 none noFrame, .strand 0 none, .complete 0 0 none noFrame, .strand 0 none,
    .complete 0 0 none noFrame, .strand 0 none] : List Client.Label) ++ Client.runs 6 2

/-- a server that accepts it, -/
def accepts : List Server.Label :=
  [.api (.start 80 { mOnClientMessageReceivedCb := some 7, mOnClientContentReceivedCb := some 8 }), .run 0 false,
    .run 0 false, .upgrade (str "/") false, .complete 0 0 none noFrame, .strand 0, .run 1 false, .run 1 false,
    .run 1 false, .run 1 false]

/-- a message and a content to the server, -/
def sends : List Client.Label :=
  ([.api (.sendMessage greeting)] : List Client.Label) ++ Client.runs 7 2 ++ ([.strand 0 none, .api (.sendContent (some greeting))] : List Client.Label) ++
  Client.runs 9 2 ++ ([.strand 0 none, .complete 0 1 none noFrame, .strand 0 none] : List Client.Label)

/-- which receives both and answers, -/
def answers : List Server.Label :=
  [.complete 0 0 none ⟨true, greeting⟩, .strand 0, .run 2 false, .run 2 false, .work, .run 3 false, .run 3 false,
    .complete 0 0 none ⟨false, greeting⟩, .strand 0, .run 4 false, .run 4 false, .work, .run 5 false,
    .api (.sendToClient 1 (makeTextPayload greeting)), .run 6 false, .run 6 false, .strand 0]

/-- and the client receives the answer. -/
def hears : List Client.Label :=
  [.complete 0 0 none ⟨true, greeting⟩, .strand 0 none, .run 12 false, .run 12 false, .work, .run 13 false]

def exchange : List Label :=
  connects.map .client ++ accepts.map .server ++ sends.map .client ++ answers.map .server ++ [.cutUp 0] ++
  hears.map .client

theorem exchange_runs : ((system 0 0).exec (create false 30 none 1024) exchange).isSome = true := by decide +kernel

end Connection

end Websockets
