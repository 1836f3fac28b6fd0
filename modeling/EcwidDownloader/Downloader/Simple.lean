import EcwidDownloader.Lib.Chars
import EcwidDownloader.Downloader.Types

/-!
# DownloaderSimple

One download: resolve, connect, request, receive, with the body going to a file
on the way. The methods follow the source one by one. Each is a function on the
pair of the socket and the downloader, since every one of them may call the
socket.

The fields below the line are the surroundings of the object: what it has in
flight, what the file system has done, and what it has shown of itself. An
operation that fails synchronously raises its error inside the call that starts
it, so the call runs the error listeners right there. Dereferencing a null
handle is recorded in `misused`.
-/

namespace EcwidDownloader

structure DownloaderSimple (P : Type) where
  backlog : Nat := 10
  fname : String := ""
  status : StatusDownloader := {}
  uriParsed : UriParseResult := {}
  resolver : Handle ResolverListener := none
  socket : Handle SocketListener := none
  netTimer : Handle TimerListener := none
  httpParser : Option P := none
  file : Handle FileListener := none
  receiveDone : Bool := false
  socketConnected : Bool := false
  buffer : List DataChunk := []
  fileOpenned : Bool := false
  fileOperationStarted : Bool := false
  offsetFile : Nat := 0
  -- the surroundings
  timerArmed : Bool := false
  fileOps : List FileOp := []
  fileCalls : List FileCall := []
  /-- The names given to `file->open`, oldest first. -/
  opened : List String := []
  faults : Faults := {}
  peerEnded : Bool := false
  received : Bytes := []
  disk : Disk := {}
  trace : List Mark := []
  misused : Bool := false

namespace DownloaderSimple

/-- A downloader with its socket. -/
abbrev World (S P : Type) := Linked S (DownloaderSimple P)

section

variable {S P : Type}

def misuse (w : World S P) : World S P := { w with owner.misused := true }

/-! ## Status -/

def report (w : World S P) : Report :=
  { state := w.owner.status.state
    queue := w.owner.buffer
    received := w.owner.received
    disk := w.owner.disk }

/-- An assignment to `m_status.state`. -/
def assign (state : State) (w : World S P) : World S P :=
  let w := { w with owner.status.state := state }
  { w with owner.trace := w.owner.trace ++ [.assigned (report w)] }

/-- `on_tick->invoke( shared_from_this() )`. -/
def invoke (w : World S P) : World S P :=
  { w with owner.trace := w.owner.trace ++ [.invoked (report w)] }

/-- `m_status.state = state; m_status.state_str = text;`. -/
def setStatus (state : State) (text : String) (w : World S P) : World S P :=
  let w := assign state w
  { w with owner.status.stateStr := text }

def updateStatus (state : State) (text : String) (w : World S P) :
    World S P :=
  invoke (setStatus state text w)

/-! ## Starting operations -/

/-- A file operation: how the call ends, and what it leaves in flight. -/
def beginFile (op : FileOp) (w : World S P) :
    Option ErrorEvent × World S P :=
  let err := w.owner.faults.file.head?.join
  let w :=
    { w with
      owner.faults.file := w.owner.faults.file.tail
      owner.fileCalls := w.owner.fileCalls ++ [⟨op, w.owner.fileOps⟩] }
  match err with
  | some err => (some err, w)
  | none => (none, { w with owner.fileOps := w.owner.fileOps ++ [op] })

/-- A call of the socket that starts an operation. -/
def beginSocket (call : S → S) (w : World S P) :
    Option ErrorEvent × World S P :=
  (w.owner.faults.socket.head?.join,
    { w with
      sock := call w.sock
      owner.faults.socket := w.owner.faults.socket.tail })

/-- `net_timer->start(5s, 0s)`. -/
def beginTimer (w : World S P) : Option ErrorEvent × World S P :=
  let err := w.owner.faults.timer.head?.join
  (err,
    { w with
      owner.timerArmed := err.isNone
      owner.faults.timer := w.owner.faults.timer.tail })

/-! ## Errors -/

variable [TCPSocket S]

/-- `terminate_handles`, the socket. -/
def terminateSocket (w : World S P) : World S P :=
  if w.owner.socket.isSome then
    { w with
      sock := TCPSocket.close w.sock
      owner.socket := w.owner.socket.clear }
  else w

/-- `terminate_handles`, the timer. -/
def terminateTimer (w : World S P) : World S P :=
  if w.owner.netTimer.isSome then
    { w with
      owner.netTimer := w.owner.netTimer.clear
      owner.timerArmed := false }
  else w

/-- `terminate_handles`, the file. `file->cancel()` leaves an operation in
flight to its completion; `file->close()` comes after `file->clear()`, so an
error that call raises has no listener. -/
def terminateFile (w : World S P) : World S P :=
  let w := { w with owner.file := w.owner.file.clear }
  if w.owner.file.isSome && w.owner.fileOpenned then
    (beginFile .close
      { w with owner.file := w.owner.file.once .unlinkClosed }).2
  else w

def terminateHandles (w : World S P) : World S P :=
  terminateFile (terminateTimer (terminateSocket
    { w with owner.resolver := w.owner.resolver.clear }))

def onErrorWithoutTick (text : String) (w : World S P) : World S P :=
  terminateHandles (setStatus .failed text w)

def onError (text : String) (w : World S P) : World S P :=
  invoke (onErrorWithoutTick text w)

/-- `stop`. -/
def stop (w : World S P) : World S P := onError "Abort." w

/-- The text of the `ErrorEvent` listeners of the socket. -/
def SocketListener.errorText (err : ErrorEvent) : SocketListener → Option String
  | .connectError ip =>
      some ("Host <" ++ ip ++ "> can`t available. " ++ err.toStr)
  | .requestError => some ("Request failed. " ++ err.toStr)
  | .responseError => some ("Response read failed. " ++ err.toStr)
  | _ => none

/-- An `ErrorEvent` of the socket. -/
def onSocketError (err : ErrorEvent) (w : World S P) : World S P :=
  (w.owner.socket.taken .error).foldl
    (fun w l =>
      match SocketListener.errorText err l with
      | some text => onError text w
      | none => w)
    { w with owner.socket := w.owner.socket.clearKind .error }

/-- An `ErrorEvent` of `net_timer`. -/
def onTimerError (err : ErrorEvent) (w : World S P) : World S P :=
  (w.owner.netTimer.taken .error).foldl
    (fun w _ => onError ("Net_timer run failed! " ++ err.toStr) w)
    { w with owner.netTimer := w.owner.netTimer.clearKind .error }

/-- The `ErrorEvent` listeners of `file`. -/
def runFileError (err : ErrorEvent) (w : World S P) :
    FileListener → World S P
  | .openError =>
      let w := { w with owner.fileOperationStarted := false }
      onError ("File <" ++ w.owner.fname ++ "> can`t open! " ++ err.toStr) w
  | .writeError =>
      let w := { w with owner.fileOperationStarted := false }
      onError ("File <" ++ w.owner.fname ++ "> write error! " ++ err.toStr) w
  | .closeError =>
      let w :=
        { w with owner.fileOperationStarted := false, owner.file := none }
      onError ("File <" ++ w.owner.fname ++ "> close error! " ++ err.toStr) w
  | _ => w

/-- An `ErrorEvent` of `file`. -/
def onFileError (err : ErrorEvent) (w : World S P) : World S P :=
  (w.owner.file.taken .error).foldl (runFileError err)
    { w with owner.file := w.owner.file.clearKind .error }

/-! ## Calls on the handles -/

/-- A file operation whose synchronous error finds its listeners. -/
def fileCall (op : FileOp) (w : World S P) : World S P :=
  match beginFile op w with
  | (some err, w) => onFileError err w
  | (none, w) => w

/-- A call that starts an operation of the socket. -/
def socketCall (call : S → S) (w : World S P) : World S P :=
  if w.owner.socket.isSome then
    match beginSocket call w with
    | (some err, w) => onSocketError err w
    | (none, w) => w
  else misuse w

/-- `socket->stop()`. -/
def socketStop (w : World S P) : World S P :=
  if w.owner.socket.isSome then { w with sock := TCPSocket.stop w.sock }
  else misuse w

/-- `net_timer->start(5s, 0s)`. -/
def timerStart (w : World S P) : World S P :=
  if w.owner.netTimer.isSome then
    match beginTimer w with
    | (some err, w) => onTimerError err w
    | (none, w) => w
  else misuse w

/-- `net_timer->stop()`. -/
def timerStop (w : World S P) : World S P :=
  if w.owner.netTimer.isSome then { w with owner.timerArmed := false }
  else misuse w

/-- `if ( m_status.state != State::Failed ) net_timer->start(5s, 0s);`. -/
def startUnlessFailed (w : World S P) : World S P :=
  if w.owner.status.state ≠ .failed then timerStart w else w

/-- `socket->once(l)`. -/
def onceSocket (l : SocketListener) (w : World S P) : World S P :=
  { w with owner.socket := w.owner.socket.once l }

/-- `file->once(l)`. -/
def onceFile (l : FileListener) (w : World S P) : World S P :=
  { w with owner.file := w.owner.file.once l }

/-! ## The exchange with the server

The three methods that start an operation of the socket against a timeout report
a status, register their listeners, and start the two. -/

def exchange (text : String) (onSocket : List SocketListener)
    (onTimer : List TimerListener) (call : S → S) (w : World S P) :
    World S P :=
  let w := updateStatus .onTheGo text w
  let w :=
    { w with
      owner.socket := onSocket.foldl (fun h l => h.once l) w.owner.socket
      owner.netTimer := onTimer.foldl (fun h l => h.once l) w.owner.netTimer }
  startUnlessFailed (socketCall call w)

def onResolve (addr : IPAddress) (w : World S P) : World S P :=
  exchange ("Host Resolved. Connect to <" ++ addr.ip ++ ">")
    [.connectError addr.ip, .connected]
    [.runError, .timeout ("Timeout connect to host <" ++ addr.ip ++ ">")]
    (if addr.v6 then TCPSocket.connect6 addr.ip w.owner.uriParsed.port
      else TCPSocket.connect addr.ip w.owner.uriParsed.port) w

def makeRequest (uri : UriParseResult) : Bytes :=
  Lib.bytes ("GET " ++ uri.query ++ " HTTP/1.1\r\n" ++
    "Host: " ++ uri.host ++ "\r\n" ++ "\r\n")

/-- What `on_connect` and `on_write_http_request` begin with. -/
def clearExchange (w : World S P) : World S P :=
  timerStop
    { w with
      owner.socket := w.owner.socket.clear
      owner.netTimer := w.owner.netTimer.clearKind .timer }

def onConnect (w : World S P) : World S P :=
  exchange "Connected, write request." [.requestError, .requestWritten]
    [.timeout "Timeout write request"]
    (TCPSocket.write (makeRequest w.owner.uriParsed))
    (clearExchange { w with owner.socketConnected := true })

def onWriteHttpRequest (w : World S P) : World S P :=
  exchange "Write request done. Wait response."
    [.responseError, .closedEarly, .firstData]
    [.timeout "Timeout read response"] TCPSocket.read (clearExchange w)

/-! ## The output file -/

def onWrite (w : World S P) : World S P :=
  match w.owner.buffer with
  | [] =>
      if w.owner.receiveDone then
        let w := { w with owner.file := w.owner.file.clear }
        fileCall .close (onceFile .closed (onceFile .closeError w))
      else
        let w := { w with owner.fileOperationStarted := false }
        if w.owner.socket.isSome then
          if !TCPSocket.active w.sock then socketCall TCPSocket.read w else w
        else misuse w
  | chunk :: _ =>
      let w := onceFile .written w
      fileCall (.write chunk.rest w.owner.offsetFile) w

/-- The name that `file->open` is called with. -/
def giveName (w : World S P) : World S P :=
  { w with owner.opened := w.owner.opened ++ [w.owner.fname] }

/-- `open_file`; the file request itself is always there. -/
def openFile (w : World S P) : World S P :=
  let w := { w with owner.file := some [] }
  let w := onceFile .openError w
  let w := onceFile .opened w
  fileCall .openFile (giveName { w with owner.fileOperationStarted := true })

/-- The first lines of `on_data`: the chunk is queued, and the socket stopped
when the queue has reached the backlog. -/
def enqueue (data : Bytes) (w : World S P) : World S P :=
  let w :=
    { w with
      owner.status.downloaded := w.owner.status.downloaded + data.length
      owner.buffer := w.owner.buffer ++ [{ data := data }]
      owner.received := w.owner.received ++ data }
  if w.owner.backlog ≤ w.owner.buffer.length then
    if w.owner.socket.isSome then
      if TCPSocket.active w.sock then socketStop w else w
    else misuse w
  else w

/-- The last lines of `on_data`: an open file that is idle gets to write. -/
def writeIfIdle (w : World S P) : World S P :=
  if w.owner.fileOpenned && !w.owner.fileOperationStarted then
    onWrite { w with owner.fileOperationStarted := true }
  else w

/-- `on_data` after the queue: the file is opened for the first chunk. -/
def feed (w : World S P) : World S P :=
  writeIfIdle (if w.owner.file.isNone then openFile w else w)

def onData (data : Bytes) (w : World S P) : World S P :=
  feed (enqueue data w)

/-! ## The response -/

def closeHandles (cb : Callback) (w : World S P) : World S P :=
  let w := { w with owner.socket := w.owner.socket.clear }
  let w := socketCall TCPSocket.shutdown (onceSocket (.shutdownDone cb) w)
  if w.owner.netTimer.isSome then
    { w with owner.netTimer := none, owner.timerArmed := false }
  else misuse w

/-- The `switch` of `on_read`. -/
def onResult (result : ResponseParseResult) (w : World S P) : World S P :=
  match result.state with
  | .inProgress =>
      updateStatus .onTheGo "Data received."
        (timerStart (onceSocket .nextData w))
  | .redirect =>
      let w := { w with owner.status.redirectUri := result.redirectUri }
      closeHandles .reportRedirect (socketStop w)
  | .done =>
      let w := { w with owner.receiveDone := true }
      closeHandles .reportDone (socketStop w)
  | .error => onError ("Response parse failed. " ++ result.errStr) w

/-- What `on_read` does with the result of the parser. -/
def afterParse (result : ResponseParseResult) (w : World S P) : World S P :=
  if w.owner.status.state = .failed then w
  else onResult result { w with owner.status.size := result.contentLength }

variable [HttpParser P]

def onRead (data : Bytes) (w : World S P) : World S P :=
  let w := timerStop w
  match w.owner.httpParser with
  | none => misuse w
  | some parser =>
      let (parser, chunks, result) := HttpParser.responseParse parser data
      afterParse result
        (chunks.foldl (fun w chunk => onData chunk w)
          { w with owner.httpParser := some parser })

/-! ## Running the listeners -/

def runCallback (w : World S P) : Callback → World S P
  | .reportRedirect =>
      updateStatus .redirect
        ("Redirect to <" ++ w.owner.status.redirectUri ++ ">") w
  | .reportDone =>
      if !w.owner.fileOpenned then
        updateStatus .done "Downloading complete" w
      else w

/-- A listener of the socket other than those for errors. -/
def runSocketListener (event : SocketEvent) (w : World S P) :
    SocketListener → World S P
  | .connected => onConnect w
  | .requestWritten => onWriteHttpRequest w
  | .closedEarly => onError "Connection it`s unexpecdly closed." w
  | .firstData =>
      let w :=
        { w with
          owner.socket :=
            (w.owner.socket.clearKind .endOfStream).once .endRead
          owner.httpParser := some HttpParser.create }
      match event with
      | .dataEvent data => onRead data w
      | _ => w
  | .nextData =>
      match event with
      | .dataEvent data => onRead data w
      | _ => w
  | .endRead => onRead [] w
  | .shutdownDone cb =>
      let w :=
        { w with
          sock := TCPSocket.close w.sock
          owner.socketConnected := false
          owner.socket := none }
      runCallback w cb
  | .connectError _ | .requestError | .responseError => w

/-- An event of the socket. -/
def onSocketEvent (event : SocketEvent) (w : World S P) : World S P :=
  match event with
  | .errorEvent err => onSocketError err w
  | event =>
      (w.owner.socket.taken event.kind).foldl (runSocketListener event)
        { w with owner.socket := w.owner.socket.clearKind event.kind }

def runTimerListener (w : World S P) : TimerListener → World S P
  | .timeout text => onError text w
  | .runError => w

/-- The `TimerEvent`. -/
def onTimerEvent (w : World S P) : World S P :=
  (w.owner.netTimer.taken .timer).foldl runTimerListener
    { w with
      owner.netTimer := w.owner.netTimer.clearKind .timer
      owner.timerArmed := false }

def runResolverListener (result : Except ErrorEvent IPAddress)
    (w : World S P) : ResolverListener → World S P
  | .resolveError =>
      match result with
      | .error err =>
          let w := { w with owner.resolver := none }
          let text :=
            "Host <" ++ w.owner.uriParsed.host ++ "> can`t resolve. " ++
              err.toStr
          if w.owner.status.state = .onTheGo then onError text w
          else onErrorWithoutTick text w
      | .ok _ => w
  | .resolved =>
      match result with
      | .ok addr => onResolve addr { w with owner.resolver := none }
      | .error _ => w

/-- The kind of event a resolution ends with. -/
def resolveKind : Except ErrorEvent IPAddress → EventKind
  | .ok _ => .addrInfo
  | .error _ => .error

def onResolverEvent (result : Except ErrorEvent IPAddress) (w : World S P) :
    World S P :=
  let k := resolveKind result
  (w.owner.resolver.taken k).foldl (runResolverListener result)
    { w with owner.resolver := w.owner.resolver.clearKind k }

/-- A listener of `file` other than those for errors. `size` is the size of the
write that has completed. -/
def runFileListener (size : Nat) (w : World S P) : FileListener → World S P
  | .opened =>
      let w :=
        { w with
          owner.fileOpenned := true
          owner.file := w.owner.file.clearKind .error }
      onWrite (onceFile .writeError w)
  | .written =>
      let w := { w with owner.offsetFile := w.owner.offsetFile + size }
      match w.owner.buffer with
      | [] => misuse w
      | chunk :: queue =>
          let chunk := { chunk with offset := chunk.offset + size }
          onWrite
            { w with
              owner.buffer :=
                if chunk.offset = chunk.length then queue
                else chunk :: queue }
  | .closed =>
      let w :=
        { w with
          owner.fileOperationStarted := false
          owner.fileOpenned := false
          owner.file := w.owner.file.clear }
      if !w.owner.socketConnected then
        updateStatus .done "Downloading complete" w
      else w
  | .unlinkClosed => { w with owner.disk.unlinked := true }
  | .openError | .writeError | .closeError => w

/-- The success of an operation, in the file system and as an event. -/
def onFileDone (op : FileOp) (size : Nat) (w : World S P) : World S P :=
  (w.owner.file.taken op.kind).foldl (runFileListener size)
    { w with
      owner.disk := op.apply size w.owner.disk
      owner.file := w.owner.file.clearKind op.kind }

/-! ## run -/

/-- What the factory and the loop can make. -/
structure Resources where
  tcp : Bool := true
  tcpTls : Bool := true
  timer : Bool := true
  resolver : Bool := true
  deriving DecidableEq, Repr

/-- `tcp_tls()` for https, `tcp()` for everything else. -/
def Resources.socket (proto : String) (resources : Resources) : Bool :=
  if proto = "https" then resources.tcpTls else resources.tcp

def createHandles (resources : Resources) (w : World S P) :
    Option String × World S P :=
  if !resources.socket w.owner.uriParsed.proto then
    (some "Socket can`t create", w)
  else
    let w := { w with owner.socket := some [] }
    if !resources.timer then
      (some "Net timer can`t create",
        { w with sock := TCPSocket.close w.sock })
    else
      let w := { w with owner.netTimer := some [] }
      if !resources.resolver then
        (some "Resolver can`t create",
          { w with sock := TCPSocket.close w.sock })
      else (none, { w with owner.resolver := some [] })

/-- `run`. The last argument is the synchronous outcome of
`resolver->nodeAddrInfo`. -/
def run (uri fname : String) (resources : Resources)
    (fault : Option ErrorEvent) (w : World S P) : Bool × World S P :=
  let w := assign .init { w with owner.fname := fname }
  match HttpParser.uriParse P uri with
  | none => (false, setStatus .failed "URI can`t parse" w)
  | some uriParsed =>
      let w := { w with owner.uriParsed := uriParsed }
      match createHandles resources w with
      | (some text, w) => (false, setStatus .failed text w)
      | (none, w) =>
          let w :=
            { w with
              owner.resolver :=
                (w.owner.resolver.once .resolveError).once .resolved }
          let w :=
            match fault with
            | some err => onResolverEvent (.error err) w
            | none => w
          if w.owner.status.state = .init then
            (true, setStatus .onTheGo
              ("Resolve host <" ++ w.owner.uriParsed.host ++ ">...") w)
          else (false, w)

/-! ## The status `run` leaves -/

omit [TCPSocket S] [HttpParser P] in
theorem beginFile_status (op : FileOp) (w : World S P) :
    (beginFile op w).2.owner.status = w.owner.status := by
  unfold beginFile
  simp only []
  split <;> rfl

omit [HttpParser P] in
/-- `terminate_handles` leaves the status as it is. -/
theorem terminateHandles_status (w : World S P) :
    (terminateHandles w).owner.status = w.owner.status := by
  have hfile (w : World S P) :
      (terminateFile w).owner.status = w.owner.status := by
    unfold terminateFile
    simp only []
    split
    · rw [beginFile_status]
    · rfl
  have htimer (w : World S P) :
      (terminateTimer w).owner.status = w.owner.status := by
    unfold terminateTimer
    split <;> rfl
  have hsocket (w : World S P) :
      (terminateSocket w).owner.status = w.owner.status := by
    unfold terminateSocket
    split <;> rfl
  unfold terminateHandles
  rw [hfile, htimer, hsocket]

omit [HttpParser P] in
/-- `create_handles` gives three fresh handles or refuses. -/
theorem createHandles_none {resources : Resources} {w w' : World S P}
    (h : createHandles resources w = (none, w')) :
    w' = { w with
      owner.socket := some []
      owner.netTimer := some []
      owner.resolver := some [] } := by
  unfold createHandles at h
  split at h
  · cases h
  · simp only [] at h
    split at h
    · cases h
    · split at h
      · cases h
      · cases h
        rfl

/-- `run` returns true with a download under way, and false with a failed
status. -/
theorem run_state {uri fname : String} {resources : Resources}
    {fault : Option ErrorEvent} {w w' : World S P} {runned : Bool}
    (h : run uri fname resources fault w = (runned, w')) :
    w'.owner.status.state = if runned then .onTheGo else .failed := by
  unfold run at h
  simp only [] at h
  split at h
  · cases h
    rfl
  · split at h
    · cases h
      rfl
    · next w₁ hcreate =>
        have hcreated := createHandles_none hcreate
        subst hcreated
        cases fault with
        | none =>
            cases h
            rfl
        | some err =>
            -- the resolver's listener fails the download before `run` returns
            have hfailed (text : String) (w : World S P) :
                (onErrorWithoutTick text w).owner.status.state = .failed := by
              unfold onErrorWithoutTick
              rw [terminateHandles_status]
              rfl
            simp only [] at h
            split at h
            · next hinit =>
                cases (hfailed _ _).symm.trans hinit
            · cases h
              exact hfailed _ _

end

end DownloaderSimple

end EcwidDownloader
