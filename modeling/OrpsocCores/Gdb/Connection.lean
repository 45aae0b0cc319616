import OrpsocCores.Gdb.HandleRsp

/-!
# The server and its client

A `Session` passes over inputs that are given.  Here they come over a connection:
the client's bytes wait in a queue, and the server sends a packet, reads one byte,
and sends the packet again unless that byte is a `+`.  While it does so it does
nothing else.

The client takes the packets one by one and acknowledges each with a `+`.  It sends
requests, as frames, and the interrupt character; it does not wait for the `+` that
`get_packet` sends.  One step of the connection is one thing that any of the server,
the client and the processor does, so that a list of events is one interleaving of
the three.  A pass of the main loop is two steps of the server, since the processor
may stall after the first part has looked at it.

The log has the requests that the server has begun to serve and the packets that it
has sent, each time it has sent them.
-/

set_option autoImplicit false

namespace OrpsocCores.Gdb

/-- The interrupt character, ETX. -/
def etx : Byte := 0x03

inductive LogEntry where
  | served (buf : RspBuf)
  | sent (body : List Byte)

/-- A stop reply, `Sxx`. -/
def isStopReply (body : List Byte) : Bool := body.head? = some (chr 'S') ∧ body.length = 3

/-- A frame that asks the server to release the processor. -/
def Frame.resumes (frame : Frame) : Bool :=
  frame.body.head? = some (chr 'c') ∨ frame.body.head? = some (chr 's')

/-- The server and what is on its way.  `polled` is true between the two parts of a
pass: the server has looked at the processor and not yet at its input.  `packet` is
the static buffer of `get_packet`.  The first of the unacknowledged packets has been
sent, and the server waits for the byte that acknowledges it; the others are still
to be sent.  `awaitsStop` belongs to the client: it has sent a `c` or `s` and has not
received a stop reply since. -/
structure Connection where
  session : Session
  polled : Bool
  packet : RspBuf
  unacknowledged : List (List Byte)
  toServer : List Byte
  toClient : List (List Byte)
  awaitsStop : Bool
  log : List LogEntry

inductive ConnectionEvent where
  | server
  | acknowledge
  | cpu (spr : BitVec 32 → BitVec 32) (stalls : Bool)
  | receive
  | interrupt
  | request (frame : Frame)

namespace Connection

variable (host : Host) (l : Connection)

/-- Begin to send packets: the first one goes out. -/
def transmit (bodies : List (List Byte)) : Connection :=
  { l with
    unacknowledged := bodies
    toClient := l.toClient ++ bodies.take 1
    log := l.log ++ (bodies.take 1).map .sent }

/-- The server acts on an input and sends what it has to say. -/
def handle (input : Input) : Connection :=
  let s := l.session.server
  let s' := s.handleInput host input
  { l with session := { l.session with server := s' } }.transmit (s.replies s')

/-- The part of the loop that looks at the processor. -/
def poll : Connection :=
  let x := l.session.beforeInput host
  { l with session := x, polled := true }.transmit (l.session.server.replies x.server)

/-- The part of the loop that peeks at the input.  A packet is read as soon as it is
there as a whole. -/
def look : Connection :=
  match l.toServer with
  | [] => l
  | ch :: rest =>
      if ch = etx ∧ l.session.server.stallState ≠ .stalled then
        { l with toServer := rest }.handle host .interrupt
      -- the character that was peeked at is positive, as a signed one
      else if l.session.server.clientWaiting = false ∧ 0 < ch ∧ ch < 0x80 then
        match getPacket l.packet l.toServer with
        | .ok ⟨some buf, _, unread⟩ =>
            { l with packet := buf, toServer := unread, log := l.log ++ [LogEntry.served buf] }.handle host
              (.packet buf)
        | _ => l
      else l

/-- The server goes on with its loop, unless it waits for an acknowledgement. -/
def proceed : Connection :=
  if l.session.server.running = true ∧ l.unacknowledged = [] then
    if l.polled then { l with polled := false }.look host else l.poll host
  else l

/-- The loop of `put_packet` reads a byte. -/
def acknowledge : Connection :=
  match l.unacknowledged, l.toServer with
  | body :: bodies, ch :: rest =>
      if ch = chr '+' then { l with toServer := rest }.transmit bodies
      else { l with toServer := rest }.transmit (body :: bodies)
  | _, _ => l

/-- The client takes a packet and acknowledges it. -/
def receive : Connection :=
  match l.toClient with
  | body :: bodies =>
      { l with
        toClient := bodies
        toServer := l.toServer ++ [chr '+']
        awaitsStop := l.awaitsStop && !isStopReply body }
  | [] => l

def step : ConnectionEvent → Connection
  | .server => l.proceed host
  | .acknowledge => l.acknowledge
  | .cpu spr stalls => { l with session := l.session.run spr stalls }
  | .receive => l.receive
  | .interrupt => { l with toServer := l.toServer ++ [etx] }
  | .request frame =>
      { l with
        toServer := l.toServer ++ frame.bytes
        awaitsStop := l.awaitsStop || frame.resumes }

end Connection

/-- A connection on which nothing has been said. -/
def Connection.opened (x : Session) (packet : RspBuf) : Connection :=
  ⟨x, false, packet, [], [], [], false, []⟩

end OrpsocCores.Gdb
