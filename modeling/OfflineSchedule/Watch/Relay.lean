import OfflineSchedule.Watch.Inbox
/-!
# Relaying changes

Named channels of which only the news counts: however often a channel is published on before its
relay runs, one change is sent. A channel that is closed still relays what was published before.
-/

namespace OfflineSchedule.Watch

/-- A channel, told from others of the same name by its number. -/
structure Channel (ν : Type) where
  name : ν
  number : Nat
deriving DecidableEq, Repr

structure Relay (ν : Type) where
  /-- Channels that can be published on. -/
  channels : List (Channel ν) := []
  /-- Channels with news, in the order in which they got it. -/
  unseen : List (Channel ν) := []
  /-- Numbers a channel that is opened next. -/
  opened : Nat := 0
deriving DecidableEq, Repr

namespace Relay

variable {ν : Type} [DecidableEq ν]

def channel? (name : ν) (r : Relay ν) : Option (Channel ν) := r.channels.find? (·.name = name)

/-- Closes the channel of a name. -/
def close (name : ν) (r : Relay ν) : Relay ν :=
  { r with channels := r.channels.filter (·.name ≠ name) }

/-- Opens a channel. An older one of the same name is closed. -/
def openChannel (name : ν) (r : Relay ν) : Relay ν :=
  { r.close name with
    channels := ⟨name, r.opened⟩ :: (r.close name).channels
    opened := r.opened + 1 }

/-- Publishes on the channel of a name, if there is one. -/
def publish (name : ν) (r : Relay ν) : Relay ν :=
  match r.channel? name with
  | some c => if c ∈ r.unseen then r else { r with unseen := r.unseen ++ [c] }
  | none => r

/-- Sends the news to the inbox. -/
def flush (r : Relay ν) (b : Inbox ν) : Relay ν × Inbox ν :=
  ({ r with unseen := [] }, r.unseen.foldl (fun b c => b.send (.changed [c.name])) b)

end Relay

end OfflineSchedule.Watch
