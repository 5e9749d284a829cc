import SyncScribe.Discovery
import SyncScribe.Lib.Simulation
import SyncScribe.System.World

/-!
The threads of a connection. `syncs_connect` and `syncs_udpconnect` start one that looks
for the server, opens a socket, announces the client, reads until the connection is lost
and begins again; `syncs_recv` starts another one for the callback of the application,
and `syncs_disconnect` ends them from the thread of its caller. They share `onexit`,
`ready`, `connect_cb_status` and the socket without a lock: a step is one access to these.
-/

namespace SyncScribe
open Lib Lib.Bytes

/-! ## The threads -/

inductive Transport
  | tcp
  | udp
  deriving DecidableEq

/-- Where `syncs_connect_thread` or `syncs_udpconnect_thread` stands, with `syncs_recv` or `syncs_udprecv` in it. -/
inductive ConnectPoint
  /-- `syncs_find_server` -/
  | finding
  /-- the test of `onexit` in the thread -/
  | testing
  | opening
  | announcing
  /-- the test for a callback -/
  | deciding
  /-- `connect_cb_status = 1` -/
  | marking
  /-- `pthread_create` -/
  | creating
  | notifying
  /-- `ready = 1` -/
  | readying
  /-- the test of `onexit` in `syncs_recv` -/
  | looping
  | reading
  /-- `ready = 0` -/
  | unreadying
  /-- `shutdown` or `close` -/
  | closing
  /-- the store of -1 to the socket -/
  | clearing
  | finished
  deriving DecidableEq

/-- Where `syncs_connect_cb_thread` stands. -/
inductive CbPoint
  /-- before it reads `connect_cb` and `connect_arg` -/
  | entering
  | calling
  /-- `connect_cb_status = 0` -/
  | storing
  | gone
  deriving DecidableEq

structure CbThread where
  point : CbPoint
  cancelled : Bool
  deriving DecidableEq

/-- Where `syncs_disconnect` stands. -/
inductive DisconnectPoint
  | outside
  | testing
  | cancelling
  | shutting
  | joining
  | freeing
  | done
  deriving DecidableEq

structure ConnectThreads where
  transport : Transport
  /-- the application gave a callback -/
  hasCb : Bool
  /-- the structure, and the buffer of `syncs_recv` -/
  receiver : Receiver
  port : Int32
  connectWait : Bool
  cbStatus : Bool
  point : ConnectPoint
  leaving : DisconnectPoint
  /-- in the order of their creation; `connect_thread` is the last of them -/
  callbacks : List CbThread
  /-- what the thread has opened and not closed -/
  descriptors : List Int

/-- What the outside has for the next step of the thread. -/
structure Fate where
  stack : List UInt8
  responses : List (Recv × UInt32)
  /-- what the opening of the socket returns -/
  opened : Int
  /-- whether `pthread_create` succeeds -/
  created : Bool
  env : ClientEnv
  read : ClientRead

inductive ConnectStep
  | thread (f : Fate)
  | callback (i : Nat)
  /-- a cancelled thread ends -/
  | die (i : Nat)
  /-- the application makes a call -/
  | call (a : ClientAct)
  | disconnect

inductive ConnectObs
  | opened (fd : Int)
  | announced (os : List ClientOut)
  | created
  | notified
  | readied
  /-- a round of the loop of `syncs_recv` -/
  | took (os : List ClientOut)
  | unreadied
  | shut (fd : Int)
  | ended
  | called (os : List ClientObs)
  | freed

def Connect.socket (s : Connect) : Transport → Int
  | .tcp => s.socketfd
  | .udp => s.usocketfd

def Connect.setSocket (s : Connect) (fd : Int) : Transport → Connect
  | .tcp => { s with socketfd := fd }
  | .udp => { s with usocketfd := fd }

namespace ConnectThreads

variable (w : ConnectThreads)

def connect : Connect := w.receiver.connect

def setConnect (s : Connect) : ConnectThreads := { w with receiver := { w.receiver with connect := s } }

def goto (p : ConnectPoint) : ConnectThreads := { w with point := p }

def socket : Int := w.connect.socket w.transport

/-- The condition of the loop around `syncs_find_server`. -/
def unknownServer : Bool := cstr w.connect.addr = [] || w.port = 0

/-- One round of `syncs_recv` or `syncs_udprecv`. -/
def round (r : ClientRead) : Receiver × List ClientOut :=
  match w.transport with
  | .tcp => ((recvStep w.receiver r).1, (recvStep w.receiver r).2.1)
  | .udp =>
    let x := udpRecvStep (r.env 0) r.beyond w.connect r.result
    (⟨x.1, w.receiver.buffer, x.2.2⟩, x.2.1)

/-- `syncs_udprecv` does not look for a callback. -/
def behindAnnounce : Transport → ConnectPoint
  | .tcp => .deciding
  | .udp => .notifying

/-- One thread calls `shutdown`, which leaves the descriptor in use, the other one `close`. -/
def descriptorsLeft : List Int :=
  match w.transport with
  | .tcp => w.descriptors
  | .udp => w.descriptors.erase w.socket

/-- The next step of `syncs_connect_thread` or `syncs_udpconnect_thread`. -/
def advance (f : Fate) : ConnectThreads × List ConnectObs :=
  match w.point with
  | .finding =>
    if w.unknownServer then
      match findServer f.stack f.responses with
      | some r =>
        (({ w with port := r.port }.setConnect { w.connect with addr := r.memory w.connect.addr }).goto .testing, [])
      | none => (w, [])
    else (w.goto .testing, [])
  | .testing => if w.connect.onexit then (w.goto .finished, [.ended]) else (w.goto .opening, [])
  | .opening =>
    if f.opened < 0 then ((w.setConnect (w.connect.setSocket f.opened w.transport)).goto .testing, [])
    else
      (({ w with descriptors := f.opened :: w.descriptors }.setConnect
        (w.connect.setSocket f.opened w.transport)).goto .announcing, [.opened f.opened])
  | .announcing =>
    ({ w with receiver := ⟨w.connect, [], false⟩, point := behindAnnounce w.transport },
      [.announced (sendId f.env w.connect)])
  | .deciding => (w.goto (if w.hasCb && !w.cbStatus then .marking else .notifying), [])
  | .marking => ({ w with cbStatus := true, point := .creating }, [])
  | .creating =>
    if f.created then ({ w with callbacks := w.callbacks ++ [⟨.entering, false⟩], point := .notifying }, [.created])
    else (w.goto .notifying, [])
  | .notifying => ({ w with connectWait := false, point := .readying }, [.notified])
  | .readying => ((w.setConnect { w.connect with ready := true }).goto .looping, [.readied])
  | .looping => (w.goto (if w.connect.onexit then .unreadying else .reading), [])
  | .reading =>
    let r := w.round f.read
    ({ w with receiver := r.1, point := if r.1.stopped then .unreadying else .looping }, [.took r.2])
  | .unreadying => ((w.setConnect { w.connect with ready := false }).goto .closing, [.unreadied])
  | .closing => ({ w with descriptors := w.descriptorsLeft, point := .clearing }, [.shut w.socket])
  | .clearing => ((w.setConnect (w.connect.setSocket (-1) w.transport)).goto .testing, [])
  | .finished => (w, [])

/-- A callback thread goes on to a point. -/
def moveCallback (i : Nat) (t : CbThread) (p : CbPoint) : ConnectThreads :=
  { w with callbacks := w.callbacks.set i { t with point := p } }

/-- The next step of `syncs_connect_cb_thread`. -/
def advanceCallback (i : Nat) : ConnectThreads :=
  match w.callbacks[i]? with
  | none => w
  | some t =>
    match t.point with
    | .entering => w.moveCallback i t .calling
    | .calling => w.moveCallback i t .storing
    -- behind `free` the store is to memory that is no longer the structure
    | .storing => { w.moveCallback i t .gone with cbStatus := w.cbStatus && w.leaving == .done }
    | .gone => w

/-- The next step of `syncs_disconnect`. -/
def advanceDisconnect : ConnectThreads × List ConnectObs :=
  match w.leaving with
  | .outside => ({ w.setConnect { w.connect with onexit := true } with leaving := .testing }, [])
  | .testing => ({ w with leaving := if w.cbStatus then .cancelling else .shutting }, [])
  | .cancelling =>
    ({ w with
      callbacks := w.callbacks.modify (w.callbacks.length - 1) fun t => { t with cancelled := true }
      leaving := .shutting }, [])
  | .shutting => ({ w with leaving := .joining }, [])
  | .joining => (if w.point = .finished then { w with leaving := .freeing } else w, [])
  | .freeing => ({ w with leaving := .done }, [.freed])
  | .done => (w, [])

end ConnectThreads

def connectStep (w : ConnectThreads) : ConnectStep → ConnectThreads × List ConnectObs
  | .thread f => w.advance f
  | .callback i => (w.advanceCallback i, [])
  | .die i =>
    match w.callbacks[i]? with
    | some t => (if t.cancelled then w.moveCallback i t .gone else w, [])
    | none => (w, [])
  | .call a =>
    if a.byApplication then (w.setConnect (clientAct w.connect a).1, [.called (clientAct w.connect a).2]) else (w, [])
  | .disconnect => w.advanceDisconnect

/-- `syncs_connect`, or `syncs_udpconnect` with its callback left out; `server` is the address and the port, if the
caller has one. -/
def connectStart (transport : Transport) (hasCb : Bool) (cid : List UInt8) (server : Option (List UInt8 × Int32)) :
    ConnectThreads where
  transport := transport
  hasCb := hasCb
  receiver := ⟨connectCreate cid ((server.map Prod.fst).getD []), [], false⟩
  port := (server.map Prod.snd).getD 0
  connectWait := true
  cbStatus := false
  point := .finding
  leaving := .outside
  callbacks := []
  descriptors := []

/-- What a step shows of how far the thread goes. -/
inductive ConnectObs.Kind
  | opened
  | created
  | took
  | other
  deriving DecidableEq

def ConnectObs.kind : ConnectObs → ConnectObs.Kind
  | .opened _ => .opened
  | .created => .created
  | .took _ => .took
  | _ => .other

def ConnectStep.isThread : ConnectStep → Bool
  | .thread _ => true
  | _ => false

/-- `syncs_find_server` finds nothing. -/
def ConnectStep.fails : ConnectStep → Prop
  | .thread f => findServer f.stack f.responses = none
  | _ => True

/-! ## What the threads leave to each other -/

section Links

variable {s s' s'' : Connect}

/-- The fields the connection thread stores to. -/
def Connect.link (s : Connect) : Int × Int × Bool × List UInt8 := (s.socketfd, s.usocketfd, s.ready, s.addr)

/-- They are the same, and `onexit` has not been taken back. -/
structure SameLink (s s' : Connect) : Prop where
  link : s'.link = s.link
  onexit : s.onexit = true → s'.onexit = true

theorem SameLink.refl (s : Connect) : SameLink s s := ⟨rfl, id⟩

theorem SameLink.trans (h : SameLink s s') (h' : SameLink s' s'') : SameLink s s'' :=
  ⟨h'.link.trans h.link, fun hon => h'.onexit (h.onexit hon)⟩

theorem SameLink.socket (h : SameLink s s') (t : Transport) : s'.socket t = s.socket t := by
  have hlink := h.link
  simp only [Connect.link, Prod.mk.injEq] at hlink
  cases t with
  | tcp => exact hlink.1
  | udp => exact hlink.2.1

theorem SameLink.ready (h : SameLink s s') : s'.ready = s.ready := congrArg (fun l => l.2.2.1) h.link

theorem SameLink.addr (h : SameLink s s') : s'.addr = s.addr := congrArg (fun l => l.2.2.2) h.link

theorem call_sameLink (a : ClientAct) (ha : a.byApplication = true) : SameLink s (clientAct s a).1 := by
  by_cases hs : a.subscribes = true
  · rw [clientAct_subscribes hs]
    exact ⟨rfl, id⟩
  · cases a with
    | subscribe | subscribeSync | subscribeSyncUser | unsubscribe => exact absurd rfl hs
    | sockets | sendId | packet => cases ha
    | write | define | undefine | requestListEnd | freeList => exact ⟨rfl, id⟩
    | read env flags cid =>
      simp only [clientAct, clientReadCall]
      split <;> exact ⟨rfl, id⟩
    | waitEvent size =>
      simp only [clientAct, SyncScribe.waitEvent]
      split <;> exact ⟨rfl, id⟩
    | channelAnons env cid flags port =>
      simp only [clientAct, channelAnonsCall]
      cases s.findFreeChannel <;> exact ⟨rfl, id⟩
    | channelRequest env cid =>
      simp only [clientAct, channelRequestCall]
      split <;> exact ⟨rfl, id⟩
    | requestList env l =>
      simp only [clientAct, SyncScribe.requestList]
      split <;> exact ⟨rfl, id⟩

theorem processPacket_sameLink (env : ClientEnv) (s : Connect) (p : Packet) : SameLink s (processPacket env s p).1 := by
  refine ⟨?_, fun hon => by rw [processPacket_onexit, hon, Bool.true_or]⟩
  cases hm : p.header.msg
  all_goals simp only [processPacket, hm]
  case event => rw [processEvent_frame]; rfl
  case serverStatus => rw [processError_frame]; rfl
  case channel => rw [channelProcessPacket_frame]; rfl
  case read => rw [processRead_frame]; rfl
  all_goals rfl

theorem foldl_receivePacket_sameLink (env : Nat → ClientEnv) (beyond : List UInt8) (ps : List Packet) (st : Receiving) :
    SameLink st.connect (ps.foldl (receivePacket env beyond) st).connect := by
  induction ps generalizing st with
  | nil => exact .refl _
  | cons p ps ih =>
    have hhead : SameLink st.connect (receivePacket env beyond st p).connect := processPacket_sameLink _ _ _
    exact hhead.trans (ih (receivePacket env beyond st p))

theorem recvStep_sameLink (st : Receiver) (r : ClientRead) : SameLink st.connect (recvStep st r).1.connect := by
  cases hr : r.result with
  | again | error =>
    simp only [recvStep, hr]
    exact .refl _
  | data bytes =>
    simp only [recvStep, hr, receive_eq_foldl]
    split
    · split <;> exact .refl _
    · exact foldl_receivePacket_sameLink r.env r.beyond _ ⟨st.connect, [], []⟩

theorem udpRecvStep_sameLink (env : ClientEnv) (beyond : List UInt8) (s : Connect) (r : Recv) :
    SameLink s (udpRecvStep env beyond s r).1 := by
  cases r with
  | again | error => exact .refl s
  | data bytes =>
    simp only [udpRecvStep]
    split
    · exact .refl s
    · split
      · exact .refl s
      · split
        · exact .refl s
        · exact processPacket_sameLink _ _ _

theorem round_sameLink (w : ConnectThreads) (r : ClientRead) : SameLink w.connect (w.round r).1.connect := by
  unfold ConnectThreads.round
  cases w.transport with
  | tcp => exact recvStep_sameLink w.receiver r
  | udp => exact udpRecvStep_sameLink (r.env 0) r.beyond w.connect r.result

end Links

/-! ## The course of a connection -/

/-- How far a connection is. -/
inductive Session
  | closed
  | opened (fd : Int)
  | announced (fd : Int)
  | notified (fd : Int)
  | ready (fd : Int)
  | over (fd : Int)
  | ended
  deriving DecidableEq

/-- What may be seen next. -/
def Session.next : Session → ConnectObs → Option Session
  | .closed, .opened fd => some (.opened fd)
  | .opened fd, .announced _ => some (.announced fd)
  | .announced fd, .created => some (.announced fd)
  | .announced fd, .notified => some (.notified fd)
  | .notified fd, .readied => some (.ready fd)
  | .ready fd, .took _ => some (.ready fd)
  | .ready fd, .unreadied => some (.over fd)
  | .over fd, .shut fd' => if fd = fd' then some .closed else none
  | .closed, .ended => some .ended
  | x, .called _ | x, .freed => some x
  | _, _ => none

/-- What the connection thread does not do. -/
def ConnectObs.apart : ConnectObs → Bool
  | .called _ | .freed => true
  | _ => false

theorem next_apart (x : Session) {os : List ConnectObs} (h : ∀ o ∈ os, o.apart = true) :
    os.foldlM Session.next x = some x := by
  induction os with
  | nil => rfl
  | cons o os ih =>
    have hhead : Session.next x o = some x := by
      have ho := h o List.mem_cons_self
      cases o <;> cases ho <;> cases x <;> rfl
    rw [List.foldlM_cons, hhead]
    exact ih fun o ho => h o (List.mem_cons_of_mem _ ho)

/-- The connection thread is where it was, and so is what it alone stores to. -/
structure Beside (w : ConnectThreads) (x : ConnectThreads × List ConnectObs) : Prop where
  point : x.1.point = w.point
  transport : x.1.transport = w.transport
  port : x.1.port = w.port
  descriptors : x.1.descriptors = w.descriptors
  link : SameLink w.connect x.1.connect
  apart : ∀ o ∈ x.2, o.apart = true

theorem Beside.refl (w : ConnectThreads) : Beside w (w, []) :=
  ⟨rfl, rfl, rfl, rfl, .refl _, fun _ h => absurd h List.not_mem_nil⟩

theorem advanceCallback_beside (w : ConnectThreads) (i : Nat) : Beside w (w.advanceCallback i, []) := by
  unfold ConnectThreads.advanceCallback
  split
  · exact .refl w
  · split <;> exact ⟨rfl, rfl, rfl, rfl, .refl _, fun _ h => absurd h List.not_mem_nil⟩

theorem advanceDisconnect_beside (w : ConnectThreads) : Beside w w.advanceDisconnect := by
  unfold ConnectThreads.advanceDisconnect
  cases w.leaving with
  | outside => exact ⟨rfl, rfl, rfl, rfl, ⟨rfl, fun _ => rfl⟩, fun _ h => absurd h List.not_mem_nil⟩
  | joining =>
    simp only
    split
    · exact ⟨rfl, rfl, rfl, rfl, .refl _, fun _ h => absurd h List.not_mem_nil⟩
    · exact .refl w
  | freeing =>
    refine ⟨rfl, rfl, rfl, rfl, .refl _, ?_⟩
    intro o ho
    rw [List.mem_singleton.mp ho]
    rfl
  | testing | cancelling | shutting | done =>
    exact ⟨rfl, rfl, rfl, rfl, .refl _, fun _ h => absurd h List.not_mem_nil⟩

/-- **The other threads leave the connection thread alone.** -/
theorem connectStep_beside (w : ConnectThreads) {a : ConnectStep} (ha : ∀ f, a ≠ .thread f) :
    Beside w (connectStep w a) := by
  cases a with
  | thread f => exact absurd rfl (ha f)
  | callback i => exact advanceCallback_beside w i
  | die i =>
    simp only [connectStep]
    split
    · split
      · exact ⟨rfl, rfl, rfl, rfl, .refl _, fun _ h => absurd h List.not_mem_nil⟩
      · exact .refl w
    · exact .refl w
  | call b =>
    simp only [connectStep]
    by_cases hb : b.byApplication = true
    · rw [if_pos hb]
      refine ⟨rfl, rfl, rfl, rfl, call_sameLink b hb, ?_⟩
      intro o ho
      rw [List.mem_singleton.mp ho]
      rfl
    · rw [if_neg hb]
      exact .refl w
  | disconnect => exact advanceDisconnect_beside w

theorem thread_or_beside (w : ConnectThreads) (a : ConnectStep) :
    (∃ f, a = .thread f) ∨ a.isThread = false ∧ Beside w (connectStep w a) := by
  cases a with
  | thread f => exact .inl ⟨f, rfl⟩
  | callback | die | call | disconnect => exact .inr ⟨rfl, connectStep_beside w fun f h => by cases h⟩

theorem Beside.socket {w : ConnectThreads} {x : ConnectThreads × List ConnectObs} (h : Beside w x) :
    x.1.socket = w.socket := by
  rw [ConnectThreads.socket, h.transport, h.link.socket]
  rfl

namespace ConnectThreads

variable {w w' : ConnectThreads}

def sessionAt : ConnectPoint → Int → Session
  | .finding, _ | .testing, _ | .opening, _ | .clearing, _ => .closed
  | .announcing, fd => .opened fd
  | .deciding, fd | .marking, fd | .creating, fd | .notifying, fd => .announced fd
  | .readying, fd => .notified fd
  | .looping, fd | .reading, fd | .unreadying, fd => .ready fd
  | .closing, fd => .over fd
  | .finished, _ => .ended

def session (w : ConnectThreads) : Session := sessionAt w.point w.socket

theorem sessionAt_behindAnnounce (t : Transport) (fd : Int) : sessionAt (behindAnnounce t) fd = .announced fd := by
  cases t <;> rfl

theorem setSocket_socket (s : Connect) (fd : Int) (t : Transport) : (s.setSocket fd t).socket t = fd := by
  cases t <;> rfl

theorem setSocket_onexit (s : Connect) (fd : Int) (t : Transport) : (s.setSocket fd t).onexit = s.onexit := by
  cases t <;> rfl

theorem round_socket (w : ConnectThreads) (r : ClientRead) :
    (w.round r).1.connect.socket w.transport = w.socket :=
  (round_sameLink w r).socket w.transport

/-- What no step of the connection thread changes, and that it does not take `onexit` back. -/
structure Continues (w w' : ConnectThreads) : Prop where
  transport : w'.transport = w.transport
  leaving : w'.leaving = w.leaving
  onexit : w.connect.onexit = true → w'.connect.onexit = true

theorem advance_continues (w : ConnectThreads) (f : Fate) : Continues w (w.advance f).1 := by
  cases hp : w.point <;> simp only [ConnectThreads.advance, hp]
  case finding =>
    split
    · split <;> exact ⟨rfl, rfl, id⟩
    · exact ⟨rfl, rfl, id⟩
  case testing | creating => split <;> exact ⟨rfl, rfl, id⟩
  case opening => split <;> exact ⟨rfl, rfl, (setSocket_onexit _ _ _).trans⟩
  case clearing => exact ⟨rfl, rfl, (setSocket_onexit _ _ _).trans⟩
  case reading => exact ⟨rfl, rfl, (round_sameLink w f.read).onexit⟩
  all_goals exact ⟨rfl, rfl, id⟩

/-- What the thread does is what comes next. -/
theorem advance_session (w : ConnectThreads) (f : Fate) :
    (w.advance f).2.foldlM Session.next w.session = some (w.advance f).1.session := by
  cases hp : w.point <;> simp only [ConnectThreads.advance, session, hp]
  case finding =>
    split
    · split
      · rfl
      · simp only [hp]
        rfl
    · rfl
  case testing => split <;> rfl
  case opening =>
    split
    · rfl
    · have hs : (w.connect.setSocket f.opened w.transport).socket w.transport = f.opened := setSocket_socket _ _ _
      exact congrArg (fun fd => some (Session.opened fd)) hs.symm
  case announcing =>
    rw [sessionAt_behindAnnounce]
    rfl
  case deciding => split <;> rfl
  case creating => split <;> rfl
  case looping => split <;> rfl
  case reading =>
    have hs := round_socket w f.read
    split <;> exact congrArg (fun fd => some (Session.ready fd)) hs.symm
  case closing =>
    have hnext : Session.next (.over w.socket) (.shut w.socket) = some .closed := if_pos rfl
    rw [List.foldlM_cons]
    exact congrArg (fun x => x.bind fun y => [].foldlM Session.next y) hnext
  all_goals rfl

theorem connectStep_session (w : ConnectThreads) (a : ConnectStep) :
    (connectStep w a).2.foldlM Session.next w.session = some (connectStep w a).1.session := by
  rcases thread_or_beside w a with ⟨f, rfl⟩ | ⟨_, hbeside⟩
  · exact advance_session w f
  · rw [next_apart _ hbeside.apart, session, session, hbeside.point, hbeside.socket]

/-- The points between the opening and the store of -1. -/
def hasSocket : ConnectPoint → Bool
  | .finding | .testing | .opening | .finished => false
  | _ => true

def isReady : ConnectPoint → Bool
  | .looping | .reading | .unreadying => true
  | _ => false

/-- The socket and `ready` go with the point of the thread. -/
structure Shown (w : ConnectThreads) : Prop where
  socket : 0 ≤ w.socket ↔ hasSocket w.point = true
  ready : w.connect.ready = isReady w.point

theorem Shown.keep (h : w.Shown) (hs : w'.socket = w.socket) (hr : w'.connect.ready = w.connect.ready)
    (hp : hasSocket w'.point = hasSocket w.point) (hq : isReady w'.point = isReady w.point) : w'.Shown :=
  ⟨by rw [hs, hp, h.socket], by rw [hr, hq, h.ready]⟩

theorem Shown.advance (h : w.Shown) (f : Fate) : (w.advance f).1.Shown := by
  cases hp : w.point <;> simp only [ConnectThreads.advance, hp]
  case finding =>
    split
    · split
      · exact h.keep rfl rfl (by rw [hp]; rfl) (by rw [hp]; rfl)
      · exact h
    · exact h.keep rfl rfl (by rw [hp]; rfl) (by rw [hp]; rfl)
  case testing => split <;> exact h.keep rfl rfl (by rw [hp]; rfl) (by rw [hp]; rfl)
  case opening =>
    have hready := h.ready
    rw [hp] at hready
    split
    · rename_i hneg
      refine ⟨?_, ?_⟩
      · change 0 ≤ (w.connect.setSocket f.opened w.transport).socket w.transport ↔ false = true
        rw [setSocket_socket]
        exact iff_of_false (by omega) Bool.false_ne_true
      · cases ht : w.transport <;> exact hready
    · rename_i hpos
      refine ⟨?_, ?_⟩
      · change 0 ≤ (w.connect.setSocket f.opened w.transport).socket w.transport ↔ true = true
        rw [setSocket_socket]
        exact iff_of_true (by omega) rfl
      · cases ht : w.transport <;> exact hready
  case announcing =>
    have hbehind : ∀ t, hasSocket (behindAnnounce t) = true ∧ isReady (behindAnnounce t) = false := by
      intro t
      cases t <;> exact ⟨rfl, rfl⟩
    exact h.keep rfl rfl (by rw [hp]; exact (hbehind _).1) (by rw [hp]; exact (hbehind _).2)
  case deciding | creating | looping => split <;> exact h.keep rfl rfl (by rw [hp]; rfl) (by rw [hp]; rfl)
  case marking | notifying | closing => exact h.keep rfl rfl (by rw [hp]; rfl) (by rw [hp]; rfl)
  case reading =>
    have hs := round_socket w f.read
    have hr := (round_sameLink w f.read).ready
    split <;> exact h.keep hs hr (by rw [hp]; rfl) (by rw [hp]; rfl)
  case readying | unreadying =>
    have hsocket := h.socket
    rw [hp] at hsocket
    exact ⟨hsocket, rfl⟩
  case clearing =>
    have hready := h.ready
    rw [hp] at hready
    refine ⟨?_, ?_⟩
    · change 0 ≤ (w.connect.setSocket (-1) w.transport).socket w.transport ↔ false = true
      rw [setSocket_socket]
      exact iff_of_false (by omega) Bool.false_ne_true
    · cases ht : w.transport <;> exact hready
  case finished => exact h

theorem Shown.step (h : w.Shown) (a : ConnectStep) : (connectStep w a).1.Shown := by
  rcases thread_or_beside w a with ⟨f, rfl⟩ | ⟨_, hbeside⟩
  · exact h.advance f
  · exact h.keep hbeside.socket hbeside.link.ready (by rw [hbeside.point]) (by rw [hbeside.point])

theorem Shown.session_ready (h : w.Shown) : w.connect.ready = true ↔ ∃ fd, 0 ≤ fd ∧ w.session = .ready fd := by
  rw [h.ready]
  constructor
  · intro hready
    refine ⟨w.socket, h.socket.mpr ?_, ?_⟩
    · cases hp : w.point <;> rw [hp] at hready <;> first | rfl | cases hready
    · rw [session]
      cases hp : w.point <;> rw [hp] at hready <;> first | rfl | cases hready
  · rintro ⟨fd, _, hsession⟩
    rw [session] at hsession
    cases hp : w.point <;> rw [hp] at hsession <;> first | rfl | cases hsession

end ConnectThreads

/-- `syncs_isconnect` -/
def isconnect : Option ConnectThreads → Int
  | some w => if w.connect.ready then 1 else 0
  | none => 0

theorem connectStart_shown (transport : Transport) (hasCb : Bool) (cid : List UInt8)
    (server : Option (List UInt8 × Int32)) : (connectStart transport hasCb cid server).Shown := by
  refine ⟨?_, rfl⟩
  have hclosed : (connectStart transport hasCb cid server).socket = -1 := by cases transport <;> rfl
  rw [hclosed]
  exact iff_of_false (by omega) Bool.false_ne_true

/-- **One connection after the other.** Whatever the application does, and whenever it leaves, the thread opens a
socket, announces the client on it, wakes who waits, reads, and shuts that socket before it opens the next one; and
`syncs_isconnect` says yes exactly while it reads. -/
theorem connections_in_order (transport : Transport) (hasCb : Bool) (cid : List UInt8)
    (server : Option (List UInt8 × Int32)) (as : List ConnectStep) :
    (run connectStep (connectStart transport hasCb cid server) as).2.foldlM Session.next .closed =
        some (run connectStep (connectStart transport hasCb cid server) as).1.session ∧
      (isconnect (some (run connectStep (connectStart transport hasCb cid server) as).1) = 1 ↔
        ∃ fd, 0 ≤ fd ∧ (run connectStep (connectStart transport hasCb cid server) as).1.session = .ready fd) := by
  refine ⟨?_, ?_⟩
  · exact run_accepted (fun _ _ h => h) (fun w a (_ : True) => ConnectThreads.connectStep_session w a) as
      (connectStart transport hasCb cid server) trivial
  · have hstart := connectStart_shown transport hasCb cid server
    have hshown := run_inductive (fun w a (h : w.Shown) => h.step a) as _ hstart
    rw [← hshown.session_ready, isconnect]
    split
    · exact iff_of_true rfl ‹_›
    · exact iff_of_false (by decide) ‹_›

end SyncScribe
