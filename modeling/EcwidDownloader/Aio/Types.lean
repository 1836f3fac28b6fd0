import EcwidDownloader.Lib.Emitter

/-!
# What the asynchronous layers pass to each other

Bytes, the events of the handles, the queue entries `DataChunk`, and the pair
of a socket with whatever owns it. A method of a socket that publishes an event
runs the owner's listeners in the middle of the method, and those listeners may
call the socket again; such a method is therefore a function on the pair, and
reads the socket anew after every publication.
-/

namespace EcwidDownloader

abbrev Bytes := List UInt8

/-- `uvw::ErrorEvent`. -/
structure ErrorEvent where
  code : Int
  what : String
  deriving DecidableEq, Repr

/-- The event types listeners are registered for. -/
inductive EventKind
  | error | addrInfo | connect | write | data | endOfStream | shutdown | close
  | timer | fileOpen | fileWrite | fileClose
  deriving DecidableEq, Repr

/-- The events of a socket. -/
inductive SocketEvent
  | errorEvent (err : ErrorEvent)
  | connectEvent
  | writeEvent
  | dataEvent (data : Bytes)
  | endEvent
  | shutdownEvent
  | closeEvent
  deriving DecidableEq, Repr

def SocketEvent.kind : SocketEvent → EventKind
  | .errorEvent _ => .error
  | .connectEvent => .connect
  | .writeEvent => .write
  | .dataEvent _ => .data
  | .endEvent => .endOfStream
  | .shutdownEvent => .shutdown
  | .closeEvent => .close

/-- `DataChunk`: `length` is the size the chunk was made with, `offset` how much
of it has been consumed. -/
structure DataChunk where
  data : Bytes
  offset : Nat := 0
  deriving DecidableEq, Repr

namespace DataChunk

def length (chunk : DataChunk) : Nat := chunk.data.length

/-- The bytes from `data.get() + offset` to the end of the chunk. -/
def rest (chunk : DataChunk) : Bytes := chunk.data.drop chunk.offset

/-- `chunk_available` of the source, the `length - offset` both consumers of a
chunk compute. -/
def available (chunk : DataChunk) : Nat := chunk.length - chunk.offset

@[simp] theorem length_rest (chunk : DataChunk) :
    chunk.rest.length = chunk.available := by
  simp [rest, available, length]

/-- Consuming some bytes drops them from the rest. -/
theorem rest_advance (chunk : DataChunk) (n : Nat) :
    ({ chunk with offset := chunk.offset + n } : DataChunk).rest =
      chunk.rest.drop n := by
  simp [rest, List.drop_drop]

end DataChunk

/-- The bytes a queue of chunks still holds. -/
def unread (queue : List DataChunk) : Bytes := queue.flatMap DataChunk.rest

@[simp] theorem unread_nil : unread [] = [] := rfl

@[simp] theorem unread_cons (chunk : DataChunk) (queue : List DataChunk) :
    unread (chunk :: queue) = chunk.rest ++ unread queue := rfl

@[simp] theorem unread_append (q₁ q₂ : List DataChunk) :
    unread (q₁ ++ q₂) = unread q₁ ++ unread q₂ := by
  simp [unread]

/-- `buffer.emplace(data, length)` puts the data behind everything unread. -/
theorem unread_emplace (queue : List DataChunk) (data : Bytes) :
    unread (queue ++ [{ data := data }]) = unread queue ++ data := by
  simp [DataChunk.rest]

/-- A socket together with what owns it. -/
structure Linked (S U : Type*) where
  sock : S
  owner : U

end EcwidDownloader
