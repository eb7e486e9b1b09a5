import Mathlib.Data.Nat.Notation
import Mathlib.Tactic.NormNum

/-!
# Platform: events, errors, system calls

The vocabulary of `sock.h`, `platform_api.h` and the two pollers that the rest of the network code
uses: the state of a connection, the platform-independent event set and its translation from
`epoll` and `kqueue`, the classification of error codes, and what a system call may report.

Error codes are the numbers of Linux.
-/

namespace CxpNet

/-- `State` -/
inductive State where
  | kDisconnected
  | kConnecting
  | kConnected
  | kDisconnecting
  deriving DecidableEq, Repr

/-- A set of unified events (`events::kRead` and so on). -/
structure Events where
  read : Bool
  write : Bool
  error : Bool
  hup : Bool
  deriving DecidableEq, Repr

/-! ### What the pollers report -/

/-- The bits of `epoll_event::events` that the code reads. -/
structure EpollEvents where
  epollIn : Bool
  epollOut : Bool
  epollErr : Bool
  epollHup : Bool
  epollRdhup : Bool
  deriving DecidableEq, Repr

/-- `EpollPoller::from_epoll_events` -/
def EpollEvents.toEvents (e : EpollEvents) : Events where
  read := e.epollIn
  write := e.epollOut
  error := e.epollErr
  hup := e.epollHup || e.epollRdhup

/-- The filter of a `kevent`. -/
inductive Filter where
  | read
  | write
  deriving DecidableEq, Repr

/-- The parts of a `kevent` that the code reads. -/
structure Kevent where
  filter : Filter
  evError : Bool
  evEof : Bool
  deriving DecidableEq, Repr

/-- `KqueuePoller::from_kqueue_events` -/
def Kevent.toEvents (e : Kevent) : Events where
  read := e.filter = .read
  write := e.filter = .write
  error := e.evError
  hup := e.evEof

/-! ### Error codes -/

/-- What a loop around a system call does about an error. -/
inductive ErrorAction where
  | kBreak
  | kContinue
  | kClose
  deriving DecidableEq, Repr

def EINTR : ℕ := 4
def EBADF : ℕ := 9
def EAGAIN : ℕ := 11
def EINVAL : ℕ := 22
def EPROTO : ℕ := 71
def ECONNABORTED : ℕ := 103
def ETIMEDOUT : ℕ := 110
def EALREADY : ℕ := 114

/-- `Platform::handle_error_action` -/
def handleErrorAction (err : ℕ) : ErrorAction :=
  if err = EAGAIN then .kBreak
  else if err = EPROTO ∨ err = ECONNABORTED ∨ err = EINTR then .kContinue
  else .kClose

/-! ### System calls -/

/-- The kernel's bound on one transfer (`0x7ffff000` bytes on Linux). -/
structure Kernel where
  maxRwCount : ℕ
  pos : 0 < maxRwCount
  /-- A transfer fits an `int`. -/
  lt : maxRwCount < 2 ^ 31

/-- Linux. -/
def Kernel.linux : Kernel := ⟨0x7ffff000, by norm_num, by norm_num⟩

/-- A `ssize_t` that is not negative, assigned to an `int`. -/
def toInt (n : ℕ) : ℤ := (BitVec.ofNat 32 n).toInt

theorem toInt_of_lt {n : ℕ} (h : n < 2 ^ 31) : toInt n = n := by
  rw [toInt, BitVec.toInt_eq_toNat_cond, BitVec.toNat_ofNat, Nat.mod_eq_of_lt (by omega),
    if_pos (by omega)]

/-- What `::send` reports. -/
inductive SendRet where
  | accepted (n : ℕ)
  | error (e : ℕ)
  deriving DecidableEq, Repr

/-- What `::recv` reports. -/
inductive RecvRet where
  | data (bs : List UInt8)
  | eof
  | error (e : ℕ)
  deriving DecidableEq, Repr

/-- What `get_sockaddr` and `Platform::connect` come to. -/
inductive ConnectRet where
  | badAddress
  | failed (e : ℕ)
  | inProgress (h : ℕ)
  deriving DecidableEq, Repr

/-- The bytes of one message; no object is larger than `PTRDIFF_MAX`. -/
structure Msg where
  bytes : List UInt8
  lt : bytes.length < 2 ^ 63
  deriving DecidableEq

end CxpNet
