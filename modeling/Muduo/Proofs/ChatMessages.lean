/-
Messages that are sent through the codec of the chat server.

The reader calls back with the messages that were sent, in their order and however their bytes
were cut, up to the first one that is too long for it; there it shuts the connection down, and
what follows is never looked at.
-/
import Muduo.Examples.Chat

namespace Chat

open Lib LengthHeaderCodec

/-- What the reader takes. -/
def Short (m : Bytes) : Prop := m.length ≤ 65536

instance : DecidablePred Short := fun _ => Nat.decLe _ _

/-- The reader, when what has arrived is the beginning of what was sent. -/
structure Reads (ms : List Bytes) (later : Bytes) (r : LengthHeaderCodec × Bytes) : Prop where
  stopped : r.1.onMessage r.2 = r
  rest : ∃ rest, ms = r.1.messages ++ rest ∧ r.2 ++ later = (rest.map send).flatten ∧
    (r.1.shutdown = true → ∃ m ∈ rest.head?, ¬Short m)
  short : ∀ m ∈ r.1.messages, Short m

end Chat
