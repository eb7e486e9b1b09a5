import CxpNet.Machine.Basic
import Mathlib.Data.Nat.Notation
import Mathlib.Logic.Function.Basic

/-!
# The two pollers

`Channel` of `channel.cc` over a `PollerBase`, and its two implementations: `EpollPoller`
(`poller_for_epoll.cc`) and `KqueuePoller` (`poller_for_kqueue.cc`), each with what the kernel has
recorded for it.  Channels are objects of a type `ι`; `fd c` is the descriptor of the channel `c`.
A function returns `none` where an `ENSURE` throws.
-/

namespace CxpNet

namespace Poller

/-! ### Channels -/

/-- The unified events a channel asks for: `kRead`, `kWrite`. -/
structure Mask where
  read : Bool
  write : Bool
  deriving DecidableEq, Repr

/-- `events::kNone` -/
def Mask.kNone : Mask := ⟨false, false⟩

/-- `Channel`: its `events_` and `registered_`. -/
structure Channel where
  events : Mask
  registered : Bool
  deriving DecidableEq, Repr

/-- The channels of a poll and the state `π` of its poller. -/
structure Poll (ι π : Type) where
  chan : ι → Channel
  poller : π

variable {ι π : Type} [DecidableEq ι]

namespace Poll

def setEvents (c : ι) (m : Mask) (s : Poll ι π) : Poll ι π :=
  { s with chan := Function.update s.chan c { s.chan c with events := m } }

/-- `Channel::set_registered` -/
def setRegistered (c : ι) (b : Bool) (s : Poll ι π) : Poll ι π :=
  { s with chan := Function.update s.chan c { s.chan c with registered := b } }

/-- The fresh channels of a poller that has nothing registered. -/
def init (p : π) : Poll ι π := ⟨fun _ => ⟨.kNone, false⟩, p⟩

end Poll

/-- The virtual functions of `PollerBase`. -/
structure PollerBase (ι π : Type) where
  updateChannel : ι → Poll ι π → Option (Poll ι π)
  removeChannel : ι → Poll ι π → Option (Poll ι π)

section

variable (P : PollerBase ι π)

def addReadEvent (c : ι) (s : Poll ι π) : Option (Poll ι π) :=
  if (s.chan c).events.read then some s
  else P.updateChannel c (s.setEvents c { (s.chan c).events with read := true })

def addWriteEvent (c : ι) (s : Poll ι π) : Option (Poll ι π) :=
  if (s.chan c).events.write then some s
  else P.updateChannel c (s.setEvents c { (s.chan c).events with write := true })

def removeWriteEvent (c : ι) (s : Poll ι π) : Option (Poll ι π) :=
  if (s.chan c).events.write then
    P.updateChannel c (s.setEvents c { (s.chan c).events with write := false })
  else some s

def clearEvent (c : ι) (s : Poll ι π) : Option (Poll ι π) :=
  P.updateChannel c (s.setEvents c .kNone)

/-- The operations on channels. -/
inductive Op (ι : Type) where
  | addReadEvent (c : ι)
  | addWriteEvent (c : ι)
  | removeWriteEvent (c : ι)
  | clearEvent (c : ι)
  | remove (c : ι)
  deriving DecidableEq, Repr

/-- The channels over a poller as a machine. -/
def machine : Machine (Poll ι π) (Op ι) where
  step s op :=
    match op with
    | .addReadEvent c => addReadEvent P c s
    | .addWriteEvent c => addWriteEvent P c s
    | .removeWriteEvent c => removeWriteEvent P c s
    | .clearEvent c => clearEvent P c s
    | .remove c => P.removeChannel c s

end

/-! ### epoll -/

/-- The events recorded in the epoll set, besides `EPOLLET`. -/
structure EpollMask where
  epollIn : Bool
  epollRdhup : Bool
  epollOut : Bool
  deriving DecidableEq, Repr

/-- `to_epoll_events` -/
def toEpollEvents (m : Mask) : EpollMask where
  epollIn := m.read
  epollRdhup := m.read
  epollOut := m.write

inductive EpollOp where
  | add
  | mod
  | del
  deriving DecidableEq, Repr

/-- `EpollPoller` and the kernel's epoll set. -/
structure Epoll (ι : Type) where
  /-- `channels_` -/
  channels : ℕ → Option ι
  /-- The epoll set: for each descriptor in it the events and `data.ptr`. -/
  set : ℕ → Option (EpollMask × ι)
  /-- History: the calls of `epoll_ctl`, and whether the descriptor was in the set. -/
  calls : List (EpollOp × ℕ × Bool)

namespace Epoll

/-- `epoll_ctl` on an open descriptor: it fails with `EEXIST` or `ENOENT`, or it changes the
set. -/
def epollCtl (op : EpollOp) (fd : ℕ) (ev : EpollMask × ι) (e : Epoll ι) : Bool × Epoll ι :=
  let present := (e.set fd).isSome
  let e := { e with calls := e.calls ++ [(op, fd, present)] }
  match op with
  | .add =>
    if present then (false, e) else (true, { e with set := Function.update e.set fd (some ev) })
  | .mod =>
    if present then (true, { e with set := Function.update e.set fd (some ev) }) else (false, e)
  | .del => if present then (true, { e with set := Function.update e.set fd none }) else (false, e)

variable (fd : ι → ℕ)

/-- `EpollPoller::update` -/
def update (op : EpollOp) (c : ι) (s : Poll ι (Epoll ι)) : Option (Poll ι (Epoll ι)) :=
  let r := s.poller.epollCtl op (fd c) (toEpollEvents (s.chan c).events, c)
  if r.1 = false ∧ op ≠ .del then none else some { s with poller := r.2 }

/-- `channels_[handle] = channel;` and `channels_.erase(handle);` -/
def setChannel (h : ℕ) (c : Option ι) (s : Poll ι (Epoll ι)) : Poll ι (Epoll ι) :=
  { s with poller := { s.poller with channels := Function.update s.poller.channels h c } }

/-- `EpollPoller::update_channel` -/
def updateChannel (c : ι) (s : Poll ι (Epoll ι)) : Option (Poll ι (Epoll ι)) :=
  if (s.chan c).registered = false then
    if (s.chan c).events ≠ .kNone then
      update fd .add c ((setChannel (fd c) (some c) s).setRegistered c true)
    else some s
  else if (s.chan c).events = .kNone then
    (update fd .del c s).map fun s => (setChannel (fd c) none s).setRegistered c false
  else update fd .mod c s

/-- `EpollPoller::remove_channel` -/
def removeChannel (c : ι) (s : Poll ι (Epoll ι)) : Option (Poll ι (Epoll ι)) :=
  if (s.chan c).registered = false then some s
  else if s.poller.channels (fd c) = some c then
    some ((setChannel (fd c) none s).setRegistered c false)
  else none

/-- `EpollPoller` as a `PollerBase`. -/
def poller : PollerBase ι (Epoll ι) := ⟨updateChannel fd, removeChannel fd⟩

def init : Epoll ι := ⟨fun _ => none, fun _ => none, []⟩

/-- The interest that the kernel has recorded for a descriptor. -/
def interest (e : Epoll ι) (h : ℕ) : Mask :=
  match e.set h with
  | none => .kNone
  | some (ev, _) => ⟨ev.epollIn, ev.epollOut⟩

end Epoll

/-! ### kqueue -/

/-- `KqueuePoller` and the kernel's filters. -/
structure Kqueue (ι : Type) where
  /-- `channels_` -/
  channels : ℕ → Option ι
  /-- `registered_events_` -/
  registeredEvents : ℕ → Option Mask
  /-- The descriptors with an `EVFILT_READ`, and those with an `EVFILT_WRITE`. -/
  readFilter : ℕ → Bool
  writeFilter : ℕ → Bool

namespace Kqueue

/-- `register_read` and `unregister_read`; a deletion that fails is ignored. -/
def setRead (h : ℕ) (b : Bool) (k : Kqueue ι) : Kqueue ι :=
  { k with readFilter := Function.update k.readFilter h b }

/-- `register_write` and `unregister_write`. -/
def setWrite (h : ℕ) (b : Bool) (k : Kqueue ι) : Kqueue ι :=
  { k with writeFilter := Function.update k.writeFilter h b }

/-- `registered_events_[fd]` reads an entry, and makes an empty one if there is none. -/
def touch (h : ℕ) (k : Kqueue ι) : Mask × Kqueue ι :=
  match k.registeredEvents h with
  | some m => (m, k)
  | none => (.kNone,
      { k with registeredEvents := Function.update k.registeredEvents h (some .kNone) })

/-- The filters are changed where the new events differ from the old ones. -/
def changeFilters (h : ℕ) (events old : Mask) (k : Kqueue ι) : Kqueue ι :=
  let k := if events.read && !old.read then k.setRead h true
    else if !events.read && old.read then k.setRead h false
    else k
  if events.write && !old.write then k.setWrite h true
  else if !events.write && old.write then k.setWrite h false
  else k

/-- `channels_.erase(fd); registered_events_.erase(fd);` -/
def erase (h : ℕ) (k : Kqueue ι) : Kqueue ι :=
  { k with
    channels := Function.update k.channels h none
    registeredEvents := Function.update k.registeredEvents h none }

variable (fd : ι → ℕ)

/-- `KqueuePoller::update_channel` -/
def updateChannel (c : ι) (s : Poll ι (Kqueue ι)) : Option (Poll ι (Kqueue ι)) :=
  let events := (s.chan c).events
  let old := (s.poller.touch (fd c)).1
  let k := (s.poller.touch (fd c)).2
  let isNew := (k.channels (fd c)).isNone
  let k := k.changeFilters (fd c) events old
  if events = .kNone then
    if (k.channels (fd c)).isSome then
      some ({ s with poller := k.erase (fd c) }.setRegistered c false)
    else some { s with poller := k }
  else
    let s := if isNew then
        { s with
          poller := { k with
            channels := Function.update k.channels (fd c) (some c) } }.setRegistered c true
      else { s with poller := k }
    some { s with poller := { s.poller with
      registeredEvents := Function.update s.poller.registeredEvents (fd c) (some events) } }

/-- `KqueuePoller::remove_channel` -/
def removeChannel (c : ι) (s : Poll ι (Kqueue ι)) : Option (Poll ι (Kqueue ι)) :=
  if (s.poller.channels (fd c)).isNone then some s
  else
    let k := match s.poller.registeredEvents (fd c) with
      | none => s.poller
      | some old => s.poller.changeFilters (fd c) .kNone old
    some ({ s with poller := k.erase (fd c) }.setRegistered c false)

/-- `KqueuePoller` as a `PollerBase`. -/
def poller : PollerBase ι (Kqueue ι) := ⟨updateChannel fd, removeChannel fd⟩

def init : Kqueue ι := ⟨fun _ => none, fun _ => none, fun _ => false, fun _ => false⟩

/-- The interest that the kernel has recorded for a descriptor. -/
def interest (k : Kqueue ι) (h : ℕ) : Mask := ⟨k.readFilter h, k.writeFilter h⟩

end Kqueue

end Poller

end CxpNet
