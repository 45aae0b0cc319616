import Mathlib.Data.List.TakeDrop
import OrpsocCores.Gdb.Packet

/-!
# Sending to the client

`send_rsp_str` writes to a socket that does not block.  It tries again when nothing has
been written, closes the client on an error that will not pass, and takes any other
result of `write` for success, a count short of the length included.  What settles a call
is the first result that is not tried again, and the client has been sent the whole string
exactly when that result, if it is a count, is the length (`send_rsp_str_iff`).
-/

set_option autoImplicit false

namespace OrpsocCores.Gdb

/-- The values of `errno` that `send_rsp_str` tells apart. -/
inductive Errno where
  | eagain
  | eintr
  | other (code : Nat)
  deriving DecidableEq, Repr

/-- A result of `write`: `-1` with `errno`, or how many bytes the socket has taken. -/
inductive WriteResult where
  | failed (errno : Errno)
  | count (n : Nat)
  deriving DecidableEq, Repr

/-- The descriptor of the client, if it is open, and the bytes handed to the socket. -/
structure ClientSocket where
  clientFd : Option Nat
  handed : List Byte
  deriving DecidableEq, Repr

/-- The loop of `send_rsp_str`, for these results of `write`; it has not ended when there
are no more. -/
def writeUntil (data : List Byte) : List WriteResult → ClientSocket → Option ClientSocket
  | [], _ => none
  | .failed .eagain :: rest, client => writeUntil data rest client
  | .failed .eintr :: rest, client => writeUntil data rest client
  | .failed (.other _) :: _, client => some { client with clientFd := none }
  | .count 0 :: rest, client => writeUntil data rest client
  | .count (n + 1) :: _, client =>
      some { client with handed := client.handed ++ data.take (n + 1) }

/-- `send_rsp_str`; a string for a client that is not open is ignored. -/
def sendRspStr (data : List Byte) (results : List WriteResult) (client : ClientSocket) :
    Option ClientSocket :=
  if client.clientFd = none then some client else writeUntil data results client

/-- The result makes the loop try again. -/
def WriteResult.retries : WriteResult → Bool
  | .failed .eagain | .failed .eintr | .count 0 => true
  | .failed (.other _) | .count (_ + 1) => false

/-- The result that settles the call. -/
def settling (results : List WriteResult) : Option WriteResult :=
  results.find? fun result => !result.retries

/-- What the client is like behind the result that settles the call. -/
def settledBy (data : List Byte) (client : ClientSocket) : WriteResult → ClientSocket
  | .failed _ => { client with clientFd := none }
  | .count n => { client with handed := client.handed ++ data.take n }

/-- **The loop does what its first settling result says.** -/
theorem writeUntil_eq (data : List Byte) (results : List WriteResult) (client : ClientSocket) :
    writeUntil data results client = (settling results).map (settledBy data client) := by
  induction results with
  | nil => rfl
  | cons result rest ih =>
      match result with
      | .failed .eagain => exact ih
      | .failed .eintr => exact ih
      | .failed (.other _) => rfl
      | .count 0 => exact ih
      | .count (_ + 1) => rfl

/-- When the call returns and the client is still open, the socket has been handed the
string, whole, in order and once. -/
def SentWhole (data : List Byte) (results : List WriteResult) (client : ClientSocket) : Prop :=
  ∀ client', sendRspStr data results client = some client' →
    client'.clientFd = client.clientFd → client'.handed = client.handed ++ data

/-- **The string is sent whole exactly when the count that settles the call is not
short.** -/
theorem send_rsp_str_iff (data : List Byte) (results : List WriteResult) (fd : Nat)
    (handed : List Byte) :
    SentWhole data results ⟨some fd, handed⟩ ↔
      ∀ n, settling results = some (.count n) → data.length ≤ n := by
  have opened : sendRspStr data results ⟨some fd, handed⟩ =
      writeUntil data results ⟨some fd, handed⟩ := if_neg (Option.some_ne_none fd)
  rw [SentWhole, opened, writeUntil_eq]
  match settling results with
  | none => exact iff_of_true (fun _ other => nomatch other) (fun _ other => nomatch other)
  | some (.failed errno) =>
      refine iff_of_true ?_ (fun n other => nomatch other)
      intro client' returned stillOpen
      rw [← Option.some.inj returned] at stillOpen
      exact absurd stillOpen.symm (Option.some_ne_none fd)
  | some (.count n) =>
      have taken : ∀ client', some (settledBy data ⟨some fd, handed⟩ (.count n)) = some client' →
          client'.handed = handed ++ data.take n := by
        rintro client' returned
        rw [← Option.some.inj returned, settledBy]
      constructor
      · intro whole n' same
        have all := whole _ rfl rfl
        rw [taken _ rfl] at all
        rw [← WriteResult.count.inj (Option.some.inj same)]
        exact (List.take_eq_self_iff data).mp (List.append_cancel_left all)
      · intro long client' returned _
        rw [taken client' returned, List.take_of_length_le (long n rfl)]

/-- The packet `$OK#9a`. -/
def okFrame : List Byte := "$OK#9a".toList.map chr

/-- A socket that takes three bytes of the packet, and no more of it is sent. -/
theorem short_count_wrong :
    ¬ SentWhole okFrame [.failed .eagain, .count 3] ⟨some 5, []⟩ := by
  intro whole
  have taken := whole _ rfl rfl
  exact absurd taken (by decide)

end OrpsocCores.Gdb
