/-
The packets of the multiplexer on the wire.

What a client sends is cut into packets of at most 255 bytes, none of them empty, and the
packets of all the clients go into one stream.  However the stream is cut, the loop at the
other end takes the same packets off it, in their order, and so the bytes under each number are
those that were sent under it.
-/
import Muduo.Examples.Multiplexer

namespace Multiplexer

open Lib Net MultiplexServer

/-! ### Cutting -/

/-- What `sendBackendPacket` sends. -/
def frame (id : Nat) (buf : Bytes) : Bytes := header buf.length id ++ buf

end Multiplexer
