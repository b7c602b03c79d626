import HostedTests.Channel.Frame
import HostedTests.Channel.Sink

/-!
Channels: texts in frames over a source and a sink. A send that fails is the last one, so no octet
is ever written behind a torn frame. What is read goes to the subscriber of that moment.
-/

namespace HostedTests

structure Channel (σ : Type) where
  source : Frame.Source
  sink : Sink
  canSend : Bool
  subscriber : Option σ
  disposed : Bool
  mostOctets : Nat

namespace Channel

variable {σ : Type}

def fresh (source : Frame.Source) (sink : Sink) (mostOctets : Nat) : Channel σ :=
  ⟨source, sink, true, none, false, mostOctets⟩

def send (c : Channel σ) (text : String) : Except ChannelFault Unit × Channel σ :=
  if c.disposed ∨ !c.canSend then (.error .disposed, c)
  else
    match Frame.encode text with
    | .error f => (.error f, { c with canSend := false })
    | .ok frame =>
      match c.sink.put frame with
      | (.ok (), sink) => (.ok (), { c with sink := sink })
      | (.error system, sink) => (.error (.send system), { c with sink := sink, canSend := false })

def receive (c : Channel σ) : Except ChannelFault String × Channel σ :=
  if c.disposed then (.error .disposed, c)
  else
    let (r, source) := Frame.read c.mostOctets c.source
    let c := { c with source := source }
    match r with
    | .ok (some text) => (.ok text, c)
    | .ok none => (.error .peerClosed, c)
    | .error f => (.error f, c)

def notify (c : Channel σ) : Except ChannelFault (Option (σ × String)) × Channel σ :=
  let (r, c) := c.receive
  match r with
  | .ok text => (.ok (c.subscriber.map fun s => (s, text)), c)
  | .error f => (.error f, c)

theorem notify_shorter {c d : Channel σ} {receipt : Option (σ × String)}
    (h : c.notify = (.ok receipt, d)) : d.source.octets.length < c.source.octets.length := by
  unfold notify receive at h
  by_cases hdisposed : c.disposed
  · rw [if_pos hdisposed] at h
    cases h
  · rw [if_neg hdisposed] at h
    cases hread : Frame.read c.mostOctets c.source with
    | mk r source =>
      rw [hread] at h
      have hshorter := @Frame.read_shorter c.mostOctets c.source
      rw [hread] at hshorter
      obtain _ | _ | text := r
      · cases h
      · cases h
      · cases h
        exact hshorter rfl

def subscribe (c : Channel σ) (s : Option σ) : Channel σ := { c with subscriber := s }

def dispose (c : Channel σ) : Channel σ :=
  if c.disposed then c else { c with canSend := false, subscriber := none, disposed := true }

inductive Step (σ : Type) where
  | send (text : String)
  | receive
  | notify
  | subscribe (s : σ)
  | unsubscribe
  | dispose

inductive Result (σ : Type) where
  | done
  | text (text : String)
  | delivered (receipt : Option (σ × String))
  | fault (f : ChannelFault)

def step (c : Channel σ) : Step σ → Result σ × Channel σ
  | .send text =>
    match c.send text with
    | (.ok (), c) => (.done, c)
    | (.error f, c) => (.fault f, c)
  | .receive =>
    match c.receive with
    | (.ok text, c) => (.text text, c)
    | (.error f, c) => (.fault f, c)
  | .notify =>
    match c.notify with
    | (.ok receipt, c) => (.delivered receipt, c)
    | (.error f, c) => (.fault f, c)
  | .subscribe s => (.done, c.subscribe (some s))
  | .unsubscribe => (.done, c.subscribe none)
  | .dispose => (.done, c.dispose)

def run (c : Channel σ) : List (Step σ) → List (Result σ) × Channel σ
  | [] => ([], c)
  | s :: rest =>
    let (r, c) := c.step s
    let (rs, c) := c.run rest
    (r :: rs, c)

end Channel

end HostedTests
