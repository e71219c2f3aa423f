/-
What corrupt frames do to the server.

A frame with an unknown command is answered with nothing, and the server is as if it
had not come.  The other corrupt frames are not contained: the test of the hash throws
outside the `try` of `Process`, and a body that is too short fails an assertion.  So a
stream is handled as if its corrupt frames were absent exactly when the only corruption
in it are unknown commands.

That the stream is *not* handled so needs an environment in which the valid frames in
front of the corrupt one come to their end: one in which the database can be reached
but refuses every statement will do, since every operation then ends with -1.
-/
import Muduo.Proofs.Messages

namespace Bank

open Lib BankServer

variable (setup : Setup)

/-- A valid hash, a known command, and a body with all its fields. -/
def Good (f : Bytes) : Prop :=
  EndsWithHash setup.crypto f f.length ∧
    ((action? setup (headCmd f)).bind fun c => c.read (f.drop requestHeadSize) |>.map fun _ => ()).isSome

instance (f : Bytes) : Decidable (Good setup f) := inferInstanceAs (Decidable (_ ∧ _))

/-- The bytes sent and the bytes left, after a stream has been delivered. -/
def served (frames : List Bytes) : Serve (Bytes × Bytes) :=
  (fun conn => (conn.sent.flatten, conn.input.readable)) <$>
    deliver setup onConnection frames.flatten

variable {setup}

end Bank
