import Mathlib.Logic.Function.Basic

/-!
# The keyed locker

`internal/util/locker/locker.go`: a lock per key, made when somebody asks for it
and dropped when nobody does. A lock is a channel of size 1 (full while the key
is held) with a counter of the callers waiting for it; `Locker.mu` protects the
map from keys to locks, but not the channels, and not the decrement that follows
a successful send.

The model is the step system of any number of goroutines `G` over any keys `K`.
Its steps are the pieces of `Lock` and `Unlock` that no other goroutine can tell
apart from one instant. A mutex section is one step only where all it touches is
protected by the mutex; each access to a channel or a counter that others may
change meanwhile is a step of its own:

* `Lock`: the first mutex section (`lockSection`), the channel send, the `dec`
  after it, the choice of the `ctx.Done()` branch, and in that branch the `dec`
  (`abortDec`) and the look at the channel (`abortCheck`);
* `Unlock`: the look at the map and the counter (`unlockCount`), and the receive
  (`unlockRecv`).

Locks live at addresses: deleting a key from the map does not end the lock a
goroutine already got hold of, and a lock made later for the same key is another
one. Contexts become done at any time, and a goroutine whose channel is free and
whose context is done may take either branch.

Goroutines keep to the contract of `Unlock` — the key is one this goroutine
locked and has not unlocked since (`State.held`) — and are otherwise free, down to
locking a key they hold.

Mirroring note: `waiters` is an `atomic.Int32` in the source and an integer here.
The code only ever asks whether it is zero, and up to `2^32 - 1` simultaneous
callers of one key the two agree on that (`waiters_int32` in `LockerInv.lean`).
-/

namespace Capic.Locker

open Function (update)

/-- The lock of one key: is the channel full, and how many callers are counted. -/
structure LockWithCounter where
  ch : Bool
  waiters : Int
  deriving DecidableEq, Repr

namespace LockWithCounter

/-- `&lockWithCounter{ch: make(chan struct{}, 1)}`. -/
def new : LockWithCounter := ⟨false, 0⟩

def inc (l : LockWithCounter) : LockWithCounter := { l with waiters := l.waiters + 1 }

def dec (l : LockWithCounter) : LockWithCounter := { l with waiters := l.waiters - 1 }

def count (l : LockWithCounter) : Int := l.waiters

/-- `lwc.ch <- struct{}{}` on an empty channel. -/
def send (l : LockWithCounter) : LockWithCounter := { l with ch := true }

/-- `<-lwc.ch` on a full channel. -/
def recv (l : LockWithCounter) : LockWithCounter := { l with ch := false }

end LockWithCounter

/-- Where a goroutine is in the code of `Lock` and `Unlock`. -/
inductive Phase (K : Type) where
  /-- In neither. -/
  | idle
  /-- In neither, and the last call was a `Lock` of the key that returned `ctx.Err()`. -/
  | failed (key : K)
  /-- Called `Lock`, waiting for the mutex. -/
  | entering (key : K)
  /-- At the `select`, counted as a waiter of the lock at the address. -/
  | selecting (key : K) (lwc : Nat)
  /-- The send went through, `dec` is next. -/
  | acquired (key : K) (lwc : Nat)
  /-- In the `ctx.Done()` branch, waiting for the mutex. -/
  | aborting (key : K) (lwc : Nat)
  /-- There, with the mutex, having brought the counter to zero. -/
  | checking (key : K) (lwc : Nat)
  /-- At `Unlock`'s `<-lwc.ch`, with the mutex. -/
  | receiving (key : K) (lwc : Nat)
  /-- `Unlock` panicked: no such lock. -/
  | panicked (key : K)
  deriving DecidableEq, Repr

namespace Phase

variable {K : Type}

/-- May the goroutine start a new call? -/
def free : Phase K → Bool
  | idle | failed _ => true
  | _ => false

/-- The lock the goroutine is counted at as a waiter, with its key. -/
def counted : Phase K → Option (K × Nat)
  | selecting key r | acquired key r | aborting key r => some (key, r)
  | _ => none

/-- The key whose channel the goroutine has filled inside the running `Lock`. -/
def sent : Phase K → Option K
  | acquired key _ => some key
  | _ => none

/-- Does the goroutine hold the mutex? -/
def inMutex : Phase K → Bool
  | checking _ _ | receiving _ _ => true
  | _ => false

end Phase

/-- The locker and the goroutines using it. -/
structure State (G K : Type) where
  /-- Who holds the mutex between two steps, if anybody. -/
  mu : Option G
  locks : K → Option Nat
  lwcs : Nat → LockWithCounter
  /-- The first address no lock was made at. -/
  fresh : Nat
  /-- Is the context of the goroutine's `Lock` call done? -/
  done : G → Bool
  phase : G → Phase K
  /-- The keys the goroutine has locked and not unlocked since. -/
  held : G → List K

variable {G K : Type} [DecidableEq G] [DecidableEq K]

namespace State

/-- `New()`, with nobody using it. -/
def init : State G K where
  mu := none
  locks := fun _ => none
  lwcs := fun _ => .new
  fresh := 0
  done := fun _ => false
  phase := fun _ => .idle
  held := fun _ => []

/-- The goroutine moves on to another place in the code. -/
def goto (s : State G K) (g : G) (p : Phase K) : State G K :=
  { s with phase := update s.phase g p }

/-- The lock at an address changes. -/
def setLwc (s : State G K) (r : Nat) (l : LockWithCounter) : State G K :=
  { s with lwcs := update s.lwcs r l }

/-- `delete(l.locks, key)`. -/
def delete (s : State G K) (key : K) : State G K :=
  { s with locks := update s.locks key none }

/-- `l.locks[key]`, or a new lock stored there. -/
def findOrCreate (s : State G K) (key : K) : State G K × Nat :=
  match s.locks key with
  | some r => (s, r)
  | none =>
    ({ s with locks := update s.locks key (some s.fresh)
              lwcs := update s.lwcs s.fresh .new
              fresh := s.fresh + 1 }, s.fresh)

/-- The first mutex section of `Lock`. -/
def lockSection (s : State G K) (g : G) (key : K) : State G K :=
  if s.done g then s.goto g (.failed key)
  else
    let (s', r) := s.findOrCreate key
    (s'.setLwc r (s'.lwcs r).inc).goto g (.selecting key r)

/-- `lwc.dec() == 0` of `Lock`'s `ctx.Done()` branch: a counter that is not zero
ends the section. -/
def abortDec (s : State G K) (g : G) (key : K) (r : Nat) : State G K :=
  let l := (s.lwcs r).dec
  if l.count = 0 then { (s.setLwc r l).goto g (.checking key r) with mu := some g }
  else (s.setLwc r l).goto g (.failed key)

/-- `len(lwc.ch) == 0` there, and what depends on it. -/
def abortCheck (s : State G K) (g : G) (key : K) (r : Nat) : State G K :=
  { (if (s.lwcs r).ch = false then s.delete key else s).goto g (.failed key) with mu := none }

/-- `Unlock` up to the receive. -/
def unlockCount (s : State G K) (g : G) (key : K) : State G K :=
  match s.locks key with
  | none => s.goto g (.panicked key)
  | some r =>
    let s' := if (s.lwcs r).count = 0 then s.delete key else s
    { s'.goto g (.receiving key r) with mu := some g }

/-- The receive of `Unlock`, which needs a full channel. -/
def unlockRecv (s : State G K) (g : G) (key : K) (r : Nat) : State G K :=
  { (s.setLwc r (s.lwcs r).recv).goto g .idle with
    mu := none, held := update s.held g ((s.held g).erase key) }

end State

/-- One atomic step of one goroutine, or of the context of its call. -/
inductive Step : State G K → State G K → Prop where
  /-- `Lock(ctx, key)` is called; the context may be done already. -/
  | call {s : State G K} (g : G) (key : K) (done : Bool) : (s.phase g).free →
      Step s { s.goto g (.entering key) with done := update s.done g done }
  | ctxDone {s : State G K} (g : G) : Step s { s with done := update s.done g true }
  | lock {s : State G K} {g : G} {key : K} : s.phase g = .entering key → s.mu = none →
      Step s (s.lockSection g key)
  | send {s : State G K} {g : G} {key : K} {r : Nat} : s.phase g = .selecting key r →
      (s.lwcs r).ch = false →
      Step s ((s.setLwc r (s.lwcs r).send).goto g (.acquired key r))
  /-- The decrement outside the mutex, after which `Lock` returns `nil`. -/
  | dec {s : State G K} {g : G} {key : K} {r : Nat} : s.phase g = .acquired key r →
      Step s { (s.setLwc r (s.lwcs r).dec).goto g .idle with
        held := update s.held g (key :: s.held g) }
  | cancel {s : State G K} {g : G} {key : K} {r : Nat} : s.phase g = .selecting key r →
      s.done g = true → Step s (s.goto g (.aborting key r))
  | abort {s : State G K} {g : G} {key : K} {r : Nat} : s.phase g = .aborting key r →
      s.mu = none → Step s (s.abortDec g key r)
  | check {s : State G K} {g : G} {key : K} {r : Nat} : s.phase g = .checking key r →
      Step s (s.abortCheck g key r)
  | unlock {s : State G K} {g : G} {key : K} : (s.phase g).free → key ∈ s.held g →
      s.mu = none → Step s (s.unlockCount g key)
  | recv {s : State G K} {g : G} {key : K} {r : Nat} : s.phase g = .receiving key r →
      (s.lwcs r).ch = true → Step s (s.unlockRecv g key r)

/-- The states that runs of the locker reach. -/
inductive Reachable : State G K → Prop where
  | init : Reachable .init
  | step {s s' : State G K} : Reachable s → Step s s' → Reachable s'

/-- The goroutine is between a successful send in `Lock(key)` and the receive of its
`Unlock(key)`. -/
def State.Owns (s : State G K) (g : G) (key : K) : Prop :=
  (s.phase g).sent = some key ∨ key ∈ s.held g

end Capic.Locker
