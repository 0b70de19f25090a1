import LapCom.Socket.Field

set_option autoImplicit false

namespace LapCom.Socket
open LapCom.Stream

/-- Where the calls of one exchange stop: the client's send, the server's receives and the
client's receives. -/
structure Exchange where
  send : Nat → Bool
  request : Nat → Bool
  response : Nat → Bool

/-- A client and the server's loop for it. `unread` is what the server sent and the client
has not received. -/
structure Connection (V : Type) where
  connected : Bool
  loop : Loop Byte (ClientLoop V)
  unread : List Byte

section Client
variable {V : Type} (c : Protobuf V)

def answer : Received Byte → Option (Result V)
  | .more => none
  | .short => some (fail .kTimeout 0)
  | .refused => some (fail .kInvalidArgument 0)
  | .frame buf =>
    match deserializeMessage c buf with
    | .ok out => some (.ok out)
    | .error _ => some (fail .kSerializationError 0)

/-- `none` where the call waits for bytes that are not on their way. -/
def readValue (r : Reader Byte) : Option (Result V × Reader Byte) :=
  match Reading.header.next format r.input.length r with
  | none => none
  | some (received,r) => (answer c received).map fun result => (result,r)

namespace Connection
variable (fd : Nat)

def server (w : Connection V) : SocketFieldServer V := w.loop.state.server

def deliver (w : Connection V) (sent : List Byte) (cut : Nat → Bool) : Connection V :=
  let loop := clientLoop c fd w.loop ⟨sent,cut⟩
  { w with
    loop := loop
    unread := w.unread++(loop.state.server.net.written fd).drop (w.server.net.written fd).length }

def receive (w : Connection V) (cut : Nat → Bool) : Option (Result V × Connection V) :=
  match readValue c ⟨w.unread,cut⟩ with
  | none => none
  | some (result,r) => some (result,{ w with unread := r.input })

/-- The request goes out in one call, and nobody looks at how much of it went. -/
def roundTrip (w : Connection V) (op : Byte) (bytes : List Byte) (x : Exchange) :
    Option (Result V × Connection V) :=
  if w.connected then
    match buildRequestFrame op bytes with
    | .error e => some (.error e,w)
    | .ok frame =>
      (w.deliver c fd (frame.take (stop x.send frame.length)) x.request).receive c x.response
  else some (fail .kNotInitialized 0,w)

def get (w : Connection V) (x : Exchange) : Option (Result V × Connection V) :=
  w.roundTrip c fd 0 [] x

def set (w : Connection V) (v : V) (x : Exchange) : Option (Result V × Connection V) :=
  w.roundTrip c fd 1 (c.serialize v) x

def subscribe (w : Connection V) (x : Exchange) : Option (Result V × Connection V) :=
  match buildRequestFrame 2 [] with
  | .error e => some (.error e,w)
  | .ok frame =>
    let sent := sendAll frame.length ⟨x.send,fun _ => false⟩ frame []
    (w.deliver c fd sent.1 x.request).receive c x.response

def setGetSubscribe (w : Connection V) (v : V) (x y z : Exchange) :
    Option (Result V × Result V × Result V) := do
  let (stored,w) ← w.set c fd v x
  let (read,w) ← w.get c fd y
  let (initial,_) ← w.subscribe c fd z
  some (stored,read,initial)

end Connection

end Client

section Server
variable {V : Type} {c : Protobuf V} {fd : Nat}

def Request.valueAfter (q : Request V) (value : V) : V :=
  match q with
  | .set v => v
  | _ => value

theorem SocketFieldServer.notifySubscribers_nil {s : SocketFieldServer V}
    (h : s.subscribers.fds = []) (hsize : (c.serialize s.value).length < 2^31) :
    s.notifySubscribers c = s := by
  simp only [notifySubscribers,serializeMessage_of_lt hsize,h,sendTo,List.foldl_nil]

theorem SocketFieldServer.sendValue_healthy (fd : Nat) {s : SocketFieldServer V}
    (hnet : s.net.Healthy) (hsize : (c.serialize s.value).length < 2^31) :
    (s.sendValue c fd).value = s.value ∧ (s.sendValue c fd).subscribers = s.subscribers ∧
      (s.sendValue c fd).net.Healthy ∧
      (s.sendValue c fd).net.written fd = s.net.written fd++wire c [s.value] := by
  simp only [sendValue,serializeMessage_of_lt hsize,Network.send_healthy hnet]
  refine ⟨trivial,trivial,fun k => hnet (k+1),?_⟩
  simp [wire]

/-- Every request but UNSUBSCRIBE is answered with the value that the server then has. -/
theorem SocketFieldServer.execute_reply (fd : Nat) {s : SocketFieldServer V} {q : Request V}
    (hnet : s.net.Healthy) (hsub : s.subscribers.fds = []) (hq : q ≠ .unsubscribe)
    (hsize : (c.serialize (q.valueAfter s.value)).length < 2^31) :
    (s.execute c fd q).value = q.valueAfter s.value ∧ (s.execute c fd q).net.Healthy ∧
      (s.execute c fd q).net.written fd =
        s.net.written fd++wire c [q.valueAfter s.value] ∧
      (q ≠ .subscribe → (s.execute c fd q).subscribers.fds = []) := by
  cases q with
  | get =>
    obtain ⟨hvalue,hsubs,hhealthy,hwritten⟩ := sendValue_healthy fd hnet hsize
    exact ⟨hvalue,hhealthy,hwritten,fun _ => hsubs ▸ hsub⟩
  | set v =>
    obtain ⟨hvalue,hsubs,hhealthy,hwritten⟩ :=
      sendValue_healthy (s := { s with value := v }) fd hnet hsize
    have hnil :
        (({ s with value := v } : SocketFieldServer V).sendValue c fd).subscribers.fds = [] := by
      rw [hsubs]
      exact hsub
    simp only [execute]
    rw [notifySubscribers_nil hnil (hvalue ▸ hsize)]
    exact ⟨hvalue,hhealthy,hwritten,fun _ => hnil⟩
  | subscribe =>
    obtain ⟨hvalue,_,hhealthy,hwritten⟩ :=
      sendValue_healthy (s := { s with subscribers := s.subscribers.insert fd }) fd hnet hsize
    exact ⟨hvalue,hhealthy,hwritten,fun h => absurd rfl h⟩
  | unsubscribe => exact absurd rfl hq

end Server

section Reading
variable {V : Type} {c : Protobuf V}

theorem exists_frame (c : Protobuf V) {v : V} (h : (c.serialize v).length < 2^32) :
    ∃ fr : Frame format, fr.bytes = wire c [v] ∧ fr.body = c.serialize v :=
  ⟨frameOf _ h,(List.append_nil _).symm,rfl⟩

theorem readValue_wire {v : V} {cut : Nat → Bool} (hwhole : stop cut 4 = 4)
    (hv : c.serialize v ≠ []) (hsize : (c.serialize v).length ≤ maxLength) :
    ∃ r, readValue c ⟨wire c [v],cut⟩ = some (.ok v,r) ∧ r.input = [] := by
  obtain ⟨fr,hbytes,hbody⟩ := exists_frame c (Nat.lt_of_le_of_lt hsize (by decide))
  have hlen : fr.bytes.length = 4+fr.body.length := fr.bytes_length
  have hread : fr.Read := ⟨hbody ▸ hv,hbody ▸ hsize⟩
  have hnext : Reading.header.next format fr.bytes.length ⟨fr.bytes++[],cut⟩ = _ :=
    Reading.next_frame hwhole hread (by omega)
  have hmsg : deserializeMessage c fr.bytes = .ok v := by
    rw [deserializeMessage_frame (Nat.lt_of_le_of_lt (hbody ▸ hsize) (by decide)),hbody,
      c.parse_serialize v]
  rw [List.append_nil] at hnext
  refine ⟨⟨[],fun k => cut (k+(4+fr.body.length))⟩,?_,rfl⟩
  rw [← hbytes,readValue,hnext]
  simp only [answer,hmsg,Option.map_some]
  rfl

theorem whole_of_readValue {v u : V} {cut : Nat → Bool} {r : Reader Byte}
    (hsize : (c.serialize u).length ≤ maxLength)
    (h : readValue c ⟨wire c [u],cut⟩ = some (.ok v,r)) : stop cut 4 = 4 := by
  obtain ⟨fr,hbytes,_⟩ := exists_frame c (Nat.lt_of_le_of_lt hsize (by decide))
  by_contra hcut
  have hne : (⟨wire c [u],cut⟩ : Reader Byte).input ≠ [] := by
    have := fr.bytes_ne_nil []
    rwa [List.append_nil,hbytes] at this
  rw [readValue,Reading.next_short (List.length_pos_iff.mpr hne) hne hcut] at h
  cases h

theorem readValue_nil (cut : Nat → Bool) : readValue c ⟨[],cut⟩ = none := rfl

end Reading

section Exchanges
variable {V : Type} {c : Protobuf V} {fd : Nat}

/-- Between two exchanges: nothing is under way, no send fails. -/
structure Connection.Idle (w : Connection V) : Prop where
  connected : w.connected = true
  reading : w.loop.reading = .header
  unread : w.unread = []
  healthy : w.server.net.Healthy

theorem Connection.Idle.loop_eq {w : Connection V} (h : w.Idle) :
    w.loop = ⟨.header,w.loop.state⟩ := by
  obtain ⟨_,hreading,_,_⟩ := h
  cases hw : w.loop with
  | mk reading state =>
    rw [hw] at hreading
    rw [show reading = .header from hreading]

theorem Connection.deliver_unread {w : Connection V} (h : w.Idle) {sent : List Byte}
    {cut : Nat → Bool} {data : List Byte}
    (hwritten : (w.deliver c fd sent cut).server.net.written fd = w.server.net.written fd++data) :
    (w.deliver c fd sent cut).unread = data := by
  show w.unread++((w.deliver c fd sent cut).server.net.written fd).drop _ = data
  rw [hwritten,h.unread,List.nil_append,List.drop_left]

/-- A request that arrives with its prefix in one piece is executed and answered. -/
theorem Connection.deliver_request (fd : Nat) {w : Connection V} (h : w.Idle)
    (hsub : w.server.subscribers.fds = []) {q : RequestFrame} {r : Request V} {cut : Nat → Bool}
    (hwhole : stop cut 4 = 4) (hq : q.accepted c = some r) (hr : r ≠ .unsubscribe)
    (hsize : (c.serialize (r.valueAfter w.server.value)).length < 2^31) :
    (w.deliver c fd q.bytes cut).unread = wire c [r.valueAfter w.server.value] ∧
      (w.deliver c fd q.bytes cut).server = w.server.execute c fd r ∧
      (w.deliver c fd q.bytes cut).loop.reading = .header := by
  have haccepted : 1+q.payload.length ≤ maxLength ∧ requestOf c q.op q.payload = some r := by
    rw [RequestFrame.accepted] at hq
    split at hq
    · cases hq
    · exact ⟨by omega,hq⟩
  have hread : q.frame.Read := by
    refine ⟨List.cons_ne_nil _ _,?_⟩
    rw [q.frame_body_length]
    exact haccepted.1
  have hloop : (w.deliver c fd q.bytes cut).loop =
      ⟨.header,⟨w.server.execute c fd r,w.loop.state.executed++[r]⟩⟩ := by
    show clientLoop c fd w.loop ⟨q.bytes,cut⟩ = _
    rw [clientLoop,h.loop_eq,← q.frame_bytes,← List.append_nil q.frame.bytes,
      Loop.drain_frame hwhole hread,Loop.drain_nil rfl,ClientLoop.onFrame_frame,haccepted.2]
    rfl
  have hserver : (w.deliver c fd q.bytes cut).server = w.server.execute c fd r := by
    rw [server,hloop]
  obtain ⟨_,_,hwritten,_⟩ := SocketFieldServer.execute_reply fd h.healthy hsub hr hsize
  refine ⟨deliver_unread h ?_,hserver,by rw [hloop]⟩
  rw [hserver,hwritten]

/-- Where the loop executes nothing there is no response. -/
theorem Connection.receive_none {w : Connection V} (h : w.Idle) {sent : List Byte}
    {cut cut' : Nat → Bool} (hserver : (w.deliver c fd sent cut).server = w.server) :
    (w.deliver c fd sent cut).receive c cut' = none := by
  have hunread : (w.deliver c fd sent cut).unread = [] :=
    deliver_unread h (by rw [hserver,List.append_nil])
  rw [receive,hunread,readValue_nil]

theorem ClientLoop.onFrame_length (fd : Nat) (l : ClientLoop V) (buf : List Byte) :
    l.onFrame c fd buf = l ∨
      (l.onFrame c fd buf).executed.length = l.executed.length+1 ∧ 5 ≤ buf.length := by
  rw [onFrame]
  split
  · exact .inl rfl
  · next op payload hdrop =>
    have hlen := congrArg List.length hdrop
    rw [List.length_drop,List.length_cons] at hlen
    split
    · exact .inl rfl
    · exact .inr ⟨List.length_append,by omega⟩

theorem ClientLoop.spent_onFrame (l : ClientLoop V) (buf : List Byte) :
    5*(l.onFrame c fd buf).executed.length ≤ 5*l.executed.length+buf.length := by
  obtain h | ⟨h,hlen⟩ := l.onFrame_length (c := c) fd buf
  · rw [h]
    exact Nat.le_add_right _ _
  · omega

theorem clientLoop_grows (fd : Nat) (l : Loop Byte (ClientLoop V)) (r : Reader Byte) :
    l.state.executed.length ≤ (clientLoop c fd l r).state.executed.length ∧
      ((clientLoop c fd l r).state.executed.length = l.state.executed.length →
        (clientLoop c fd l r).state = l.state) := by
  refine Loop.drain_invariant (I := fun s : ClientLoop V =>
    l.state.executed.length ≤ s.executed.length ∧
      (s.executed.length = l.state.executed.length → s = l.state)) ?_ ⟨Nat.le_refl _,fun _ => rfl⟩ r
  intro s buf ⟨hle,heq⟩
  obtain h | ⟨h,_⟩ := s.onFrame_length (c := c) fd buf
  · rw [h]
    exact ⟨hle,heq⟩
  · exact ⟨by omega,fun _ => by omega⟩

theorem Connection.deliver_few {w : Connection V} (h : w.Idle) {sent : List Byte}
    {cut : Nat → Bool} (hsent : sent.length < 5) :
    (w.deliver c fd sent cut).server = w.server := by
  have hweight : 5*(clientLoop c fd ⟨.header,w.loop.state⟩ ⟨sent,cut⟩).state.executed.length ≤
      5*w.loop.state.executed.length+0+sent.length :=
    Loop.weight_drain (fun l : ClientLoop V => 5*l.executed.length) ClientLoop.spent_onFrame
      ⟨.header,w.loop.state⟩ ⟨sent,cut⟩
  obtain ⟨hle,heq⟩ := clientLoop_grows (c := c) fd ⟨.header,w.loop.state⟩ ⟨sent,cut⟩
  simp only at hle heq
  show (clientLoop c fd w.loop ⟨sent,cut⟩).state.server = _
  rw [h.loop_eq,heq (by omega)]
  rfl

theorem Connection.deliver_split {w : Connection V} (h : w.Idle) {q : RequestFrame}
    {cut : Nat → Bool} (hq : q.payload = []) (hcut : stop cut 4 ≠ 4) :
    (w.deliver c fd q.bytes cut).server = w.server := by
  obtain ⟨hle,heq⟩ := clientLoop_grows (c := c) fd ⟨.header,w.loop.state⟩ ⟨q.bytes,cut⟩
  have hlen : q.frame.body.length = 1 := by rw [q.frame_body_length,hq]; rfl
  have hbytes : stream [q.frame] = q.bytes := by
    rw [stream_cons,q.frame_bytes]
    exact List.append_nil _
  have hsame : (clientLoop c fd ⟨.header,w.loop.state⟩ ⟨q.bytes,cut⟩).state.executed.length =
      w.loop.state.executed.length := by
    by_contra hne
    have hweight : 5*w.loop.state.executed.length+(stream [q.frame]).length ≤
        5*(clientLoop c fd ⟨.header,w.loop.state⟩
          ⟨stream [q.frame],cut⟩).state.executed.length := by
      have h5 : (stream [q.frame]).length = 5 := by
        rw [hbytes,← q.frame_bytes,Frame.bytes_length,hlen]
        rfl
      rw [h5,hbytes]
      simp only at hle hne
      omega
    have hwhole := (Loop.whole_of_weight (fun l : ClientLoop V => 5*l.executed.length)
      ClientLoop.spent_onFrame (by simp [hlen]; decide) hweight).1
    exact hcut hwhole.1
  show (clientLoop c fd w.loop ⟨q.bytes,cut⟩).state.server = _
  rw [h.loop_eq,heq hsame]
  rfl

/-- A frame that is not all sent makes no request while the server waits for its rest. -/
theorem Connection.deliver_part {w : Connection V} (h : w.Idle) {q : RequestFrame}
    {cut : Nat → Bool} {n : Nat} (hwhole : stop cut 4 = 4) (hn : n < q.bytes.length)
    (hlimit : 1+q.payload.length ≤ maxLength) :
    (w.deliver c fd (q.bytes.take n) cut).server = w.server := by
  by_cases hfew : n < 5
  · exact deliver_few h (by rw [List.length_take]; omega)
  have hlen : q.bytes.length = 4+q.frame.body.length := by
    rw [← q.frame_bytes,Frame.bytes_length]
    rfl
  have htake : q.bytes.take n = q.frame.header++q.frame.body.take (n-4) := by
    rw [← q.frame_bytes,Frame.bytes,List.take_append,q.frame.header_length,
      List.take_of_length_le (by rw [q.frame.header_length]; show 4 ≤ n; omega)]
    rfl
  have hlength := q.frame.length_header
  have hl : ¬ (format.length q.frame.header = 0 ∨ format.limit < format.length q.frame.header) := by
    rw [hlength,q.frame_body_length]
    have : format.limit = maxLength := rfl
    omega
  have hne : (⟨q.bytes.take n,cut⟩ : Reader Byte).input ≠ [] := by
    apply List.ne_nil_of_length_pos
    rw [List.length_take]
    omega
  have hheader : (q.bytes.take n).take 4 = q.frame.header := by
    rw [htake,← show q.frame.header.length = 4 from q.frame.header_length,List.take_left]
  have hrest : (q.bytes.take n).drop 4 = q.frame.body.take (n-4) := by
    rw [htake,← show q.frame.header.length = 4 from q.frame.header_length,List.drop_left]
  have hdrain : (clientLoop c fd ⟨.header,w.loop.state⟩ ⟨q.bytes.take n,cut⟩).state =
      w.loop.state := by
    rw [clientLoop,Loop.drain_read hne]
    show (Loop.drain format _ (Loop.receive format _ _ ((q.bytes.take n).take (stop cut 4)))
      (Reader.skip _ (stop cut 4))).state = _
    rw [hwhole,hheader,Loop.receive_header q.frame.header_length hl,Loop.drain_waits]
    rw [Reader.skip_input,hrest,hlength,q.frame.header_length,List.length_take]
    have : format.width = 4 := rfl
    omega
  show (clientLoop c fd w.loop ⟨q.bytes.take n,cut⟩).state.server = _
  rw [h.loop_eq,hdrain]
  rfl

theorem Connection.deliver_ignored {w : Connection V} (h : w.Idle) {q : RequestFrame}
    {cut : Nat → Bool} (hwhole : stop cut 4 = 4) (hlimit : 1+q.payload.length ≤ maxLength)
    (hq : requestOf c q.op q.payload = none) : (w.deliver c fd q.bytes cut).server = w.server := by
  have hread : q.frame.Read := by
    refine ⟨List.cons_ne_nil _ _,?_⟩
    rw [q.frame_body_length]
    exact hlimit
  show (clientLoop c fd w.loop ⟨q.bytes,cut⟩).state.server = _
  rw [clientLoop,h.loop_eq,← q.frame_bytes,← List.append_nil q.frame.bytes,
    Loop.drain_frame hwhole hread,Loop.drain_nil rfl,ClientLoop.onFrame_frame,hq]
  rfl

/-- One exchange: how far the frame went out, and no prefix in parts on either side. -/
def Exchange.Whole (x : Exchange) (n : Nat) : Prop :=
  stop x.send n = n ∧ stop x.request 4 = 4 ∧ stop x.response 4 = 4

theorem Connection.receive_reply (fd : Nat) {w : Connection V} (h : w.Idle)
    (hsub : w.server.subscribers.fds = []) {q : RequestFrame} {r : Request V}
    {cut cut' : Nat → Bool} (hwhole : stop cut 4 = 4) (hq : q.accepted c = some r)
    (hr : r ≠ .unsubscribe) (hv : c.serialize (r.valueAfter w.server.value) ≠ [])
    (hsize : (c.serialize (r.valueAfter w.server.value)).length ≤ maxLength)
    (hwhole' : stop cut' 4 = 4) :
    ∃ w', (w.deliver c fd q.bytes cut).receive c cut' =
        some (.ok (r.valueAfter w.server.value),w') ∧ w'.Idle ∧
      w'.server.value = r.valueAfter w.server.value ∧
      (r ≠ .subscribe → w'.server.subscribers.fds = []) := by
  have hlt : (c.serialize (r.valueAfter w.server.value)).length < 2^31 :=
    Nat.lt_of_le_of_lt hsize (by decide)
  obtain ⟨hunread,hserver,hreading⟩ := deliver_request fd h hsub hwhole hq hr hlt
  obtain ⟨hvalue,hhealthy,_,hsubs⟩ :=
    SocketFieldServer.execute_reply fd h.healthy hsub hr hlt
  obtain ⟨rest,hresult,hnil⟩ := readValue_wire hwhole' hv hsize
  refine ⟨{ w.deliver c fd q.bytes cut with unread := rest.input },?_,
    ⟨h.connected,hreading,hnil,?_⟩,?_,?_⟩
  · rw [receive,hunread,hresult]
  · show (w.deliver c fd q.bytes cut).server.net.Healthy
    exact hserver ▸ hhealthy
  · show (w.deliver c fd q.bytes cut).server.value = _
    exact hserver ▸ hvalue
  · show r ≠ .subscribe → (w.deliver c fd q.bytes cut).server.subscribers.fds = []
    exact hserver ▸ hsubs

theorem Connection.whole_of_receive {w : Connection V} (h : w.Idle)
    (hsub : w.server.subscribers.fds = []) {q : RequestFrame} {r : Request V}
    {cut cut' : Nat → Bool} (hwhole : stop cut 4 = 4) (hq : q.accepted c = some r)
    (hr : r ≠ .unsubscribe)
    (hsize : (c.serialize (r.valueAfter w.server.value)).length ≤ maxLength) {v : V}
    {w' : Connection V}
    (hok : (w.deliver c fd q.bytes cut).receive c cut' = some (.ok v,w')) : stop cut' 4 = 4 := by
  have hlt : (c.serialize (r.valueAfter w.server.value)).length < 2^31 :=
    Nat.lt_of_le_of_lt hsize (by decide)
  obtain ⟨hunread,_,_⟩ := deliver_request fd h hsub hwhole hq hr hlt
  rw [receive,hunread] at hok
  split at hok
  · cases hok
  · next result rest hresult =>
    cases hok
    exact whole_of_readValue hsize hresult

theorem Connection.roundTrip_eq {w : Connection V} (h : w.Idle) (q : RequestFrame)
    (x : Exchange) :
    w.roundTrip c fd q.op q.payload x =
      (w.deliver c fd (q.bytes.take (stop x.send q.bytes.length)) x.request).receive c
        x.response := by
  simp only [roundTrip,h.connected,if_true,q.buildRequestFrame_eq]

theorem Connection.roundTrip_whole {w : Connection V} (h : w.Idle) {q : RequestFrame}
    {x : Exchange} (hx : stop x.send q.bytes.length = q.bytes.length) :
    w.roundTrip c fd q.op q.payload x =
      (w.deliver c fd q.bytes x.request).receive c x.response := by
  rw [roundTrip_eq h,hx,List.take_length]

/-- A call that returns a value had its frame sent whole and no prefix in parts. -/
theorem Connection.whole_of_roundTrip {w : Connection V} (h : w.Idle)
    (hsub : w.server.subscribers.fds = []) {q : RequestFrame} {r : Request V} {x : Exchange}
    (hq : q.accepted c = some r) (hr : r ≠ .unsubscribe)
    (hsize : (c.serialize (r.valueAfter w.server.value)).length ≤ maxLength)
    (hfirst : q.payload = [] ∨ stop x.request 4 = 4) {v : V} {w' : Connection V}
    (hok : w.roundTrip c fd q.op q.payload x = some (.ok v,w')) : x.Whole q.bytes.length := by
  have hlimit : 1+q.payload.length ≤ maxLength := by
    rw [RequestFrame.accepted] at hq
    split at hq
    · cases hq
    · omega
  have hlen : q.bytes.length = 5+q.payload.length := by
    rw [RequestFrame.bytes,List.length_append,htonl_length,List.length_cons]
    omega
  have hsend : stop x.send q.bytes.length = q.bytes.length := by
    by_contra hne
    have hle := stop_le x.send q.bytes.length
    rw [roundTrip_eq h,receive_none h] at hok
    · cases hok
    · cases hfirst with
      | inl hnil =>
        rw [hnil,List.length_nil] at hlen
        exact deliver_few h (by rw [List.length_take]; omega)
      | inr hwhole => exact deliver_part h hwhole (by omega) hlimit
  rw [roundTrip_whole h hsend] at hok
  have hwhole : stop x.request 4 = 4 := by
    cases hfirst with
    | inl hnil =>
      by_contra hcut
      rw [receive_none h (deliver_split h hnil hcut)] at hok
      cases hok
    | inr hwhole => exact hwhole
  exact ⟨hsend,hwhole,whole_of_receive h hsub hwhole hq hr hsize hok⟩

section Calls

def getFrame : RequestFrame := ⟨0,[],by decide⟩

def subscribeFrame : RequestFrame := ⟨2,[],by decide⟩

def setFrame (payload : List Byte) (h : payload.length < maxLength) : RequestFrame :=
  ⟨1,payload,Nat.le_trans (Nat.le_of_lt h) (by decide)⟩

theorem setFrame_accepted {v : V} (h : (c.serialize v).length < maxLength)
    (hv : c.serialize v ≠ []) : (setFrame (c.serialize v) h).accepted c = some (.set v) := by
  have hlong : ¬ maxLength < 1+(c.serialize v).length := by omega
  rw [RequestFrame.accepted,setFrame,if_neg hlong]
  show (if 0 < (c.serialize v).length then _ else _) = _
  rw [if_pos (List.length_pos_iff.mpr hv),c.parse_serialize]
  rfl

theorem Connection.subscribe_eq (w : Connection V) (x : Exchange) :
    w.subscribe c fd x = (w.deliver c fd subscribeFrame.bytes x.request).receive c x.response := by
  have hframe : buildRequestFrame 2 [] = .ok subscribeFrame.bytes :=
    subscribeFrame.buildRequestFrame_eq
  simp only [subscribe,hframe]
  rw [sendAll_of_not_fail (fun _ => rfl) (Nat.le_refl _),List.nil_append]

/-- What the round trip of `v` takes. -/
def RoundTrips (c : Protobuf V) (v : V) (x y z : Exchange) : Prop :=
  c.serialize v ≠ [] ∧ x.Whole (5+(c.serialize v).length) ∧ y.Whole 5 ∧
    stop z.request 4 = 4 ∧ stop z.response 4 = 4

variable {w : Connection V} {v : V} {x y z : Exchange}

theorem setFrame_bytes_length (h : (c.serialize v).length < maxLength) :
    (setFrame (c.serialize v) h).bytes.length = 5+(c.serialize v).length := by
  rw [RequestFrame.bytes,List.length_append,htonl_length,List.length_cons]
  show 4+((c.serialize v).length+1) = _
  omega

theorem Connection.set_ok (fd : Nat) (h : w.Idle) (hsub : w.server.subscribers.fds = [])
    (hsize : (c.serialize v).length < maxLength) (hv : c.serialize v ≠ [])
    (hx : x.Whole (5+(c.serialize v).length)) :
    ∃ w', w.set c fd v x = some (.ok v,w') ∧ w'.Idle ∧ w'.server.value = v ∧
      w'.server.subscribers.fds = [] := by
  obtain ⟨w',hset,hidle,hvalue,hsubs⟩ := receive_reply fd h hsub hx.2.1
    (setFrame_accepted hsize hv) nofun hv (Nat.le_of_lt hsize) hx.2.2
  refine ⟨w',?_,hidle,hvalue,hsubs nofun⟩
  have hsend := (setFrame_bytes_length hsize).symm ▸ hx.1
  exact (roundTrip_whole h (q := setFrame _ hsize) hsend).trans hset

theorem Connection.get_ok (fd : Nat) (h : w.Idle) (hsub : w.server.subscribers.fds = [])
    (hvalue : w.server.value = v) (hsize : (c.serialize v).length < maxLength)
    (hv : c.serialize v ≠ []) (hy : y.Whole 5) :
    ∃ w', w.get c fd y = some (.ok v,w') ∧ w'.Idle ∧ w'.server.value = v ∧
      w'.server.subscribers.fds = [] := by
  subst hvalue
  obtain ⟨w',hget,hidle,hvalue,hsubs⟩ := receive_reply fd (q := getFrame) (r := .get) h hsub
    hy.2.1 rfl nofun hv (Nat.le_of_lt hsize) hy.2.2
  refine ⟨w',?_,hidle,hvalue,hsubs nofun⟩
  exact (roundTrip_whole h (q := getFrame) hy.1).trans hget

theorem Connection.subscribe_ok (fd : Nat) (h : w.Idle) (hsub : w.server.subscribers.fds = [])
    (hvalue : w.server.value = v) (hsize : (c.serialize v).length < maxLength)
    (hv : c.serialize v ≠ []) (hrequest : stop z.request 4 = 4)
    (hresponse : stop z.response 4 = 4) :
    ∃ w', w.subscribe c fd z = some (.ok v,w') := by
  subst hvalue
  obtain ⟨w',hget,_⟩ := receive_reply fd (q := subscribeFrame) (r := .subscribe) h hsub
    hrequest rfl nofun hv (Nat.le_of_lt hsize) hresponse
  exact ⟨w',(subscribe_eq w z).trans hget⟩

theorem Connection.set_empty (h : w.Idle) (hsize : (c.serialize v).length < maxLength)
    (hv : c.serialize v = []) (hwhole : stop x.request 4 = 4) : w.set c fd v x = none := by
  have hlimit : 1+(setFrame _ hsize).payload.length ≤ maxLength := by
    show 1+(c.serialize v).length ≤ _
    omega
  have hnone : requestOf c 1 (c.serialize v) = none := by
    rw [hv]
    rfl
  refine (roundTrip_eq h (setFrame _ hsize) x).trans (receive_none h ?_)
  by_cases hsend : stop x.send (setFrame _ hsize).bytes.length = (setFrame _ hsize).bytes.length
  · rw [hsend,List.take_length]
    exact deliver_ignored h hwhole hlimit hnone
  · have := stop_le x.send (setFrame _ hsize).bytes.length
    exact deliver_part h hwhole (by omega) hlimit

end Calls

/-- The value comes back three times when the condition holds; and only then, except for a
SET prefix that reaches the server in parts. -/
theorem field_round_trip (c : Protobuf V) (fd : Nat) (w : Connection V) (v : V)
    (x y z : Exchange) (h : w.Idle) (hsub : w.server.subscribers.fds = [])
    (hsize : (c.serialize v).length < maxLength) :
    (RoundTrips c v x y z →
      w.setGetSubscribe c fd v x y z = some (.ok v,.ok v,.ok v)) ∧
    (stop x.request 4 = 4 → w.setGetSubscribe c fd v x y z = some (.ok v,.ok v,.ok v) →
      RoundTrips c v x y z) := by
  constructor
  · rintro ⟨hv,hx,hy,hrequest,hresponse⟩
    obtain ⟨w₁,hset,hidle₁,hvalue₁,hsub₁⟩ := Connection.set_ok fd h hsub hsize hv hx
    obtain ⟨w₂,hget,hidle₂,hvalue₂,hsub₂⟩ :=
      Connection.get_ok fd hidle₁ hsub₁ hvalue₁ hsize hv hy
    obtain ⟨w₃,hsubscribe⟩ :=
      Connection.subscribe_ok fd hidle₂ hsub₂ hvalue₂ hsize hv hrequest hresponse
    simp [Connection.setGetSubscribe,hset,hget,hsubscribe]
  · intro hwhole hok
    have hv : c.serialize v ≠ [] := by
      intro hempty
      rw [Connection.setGetSubscribe,Connection.set_empty h hsize hempty hwhole] at hok
      cases hok
    simp only [Connection.setGetSubscribe,Option.bind_eq_bind,Option.bind_eq_some_iff] at hok
    obtain ⟨⟨a,w₁⟩,hset,⟨b,w₂⟩,hget,⟨d,w₃⟩,hsubscribe,heq⟩ := hok
    cases heq
    have hx : x.Whole (5+(c.serialize v).length) := by
      rw [← setFrame_bytes_length hsize]
      exact Connection.whole_of_roundTrip h hsub (setFrame_accepted hsize hv) nofun
        (Nat.le_of_lt hsize) (.inr hwhole) hset
    obtain ⟨w₁',hset',hidle₁,hvalue₁,hsub₁⟩ := Connection.set_ok fd h hsub hsize hv hx
    obtain rfl : w₁ = w₁' := by
      rw [hset] at hset'
      cases hset'
      rfl
    have hsize₁ : (c.serialize w₁.server.value).length ≤ maxLength := hvalue₁ ▸ Nat.le_of_lt hsize
    have hy : y.Whole 5 := Connection.whole_of_roundTrip hidle₁ hsub₁ (q := getFrame) (r := .get)
      rfl nofun hsize₁ (.inl rfl) hget
    obtain ⟨w₂',hget',hidle₂,hvalue₂,hsub₂⟩ :=
      Connection.get_ok fd hidle₁ hsub₁ hvalue₁ hsize hv hy
    obtain rfl : w₂ = w₂' := by
      rw [hget] at hget'
      cases hget'
      rfl
    have hsize₂ : (c.serialize w₂.server.value).length ≤ maxLength := hvalue₂ ▸ Nat.le_of_lt hsize
    rw [Connection.subscribe_eq] at hsubscribe
    have hrequest : stop z.request 4 = 4 := by
      by_contra hcut
      rw [Connection.receive_none hidle₂ (Connection.deliver_split hidle₂ rfl hcut)] at hsubscribe
      cases hsubscribe
    exact ⟨hv,hx,hy,hrequest,Connection.whole_of_receive hidle₂ hsub₂ (r := .subscribe) hrequest rfl
      nofun hsize₂ hsubscribe⟩

end Exchanges

def freshConnection : Connection (BitVec 7) :=
  { connected := true
    loop := ⟨.header,⟨{ fieldServer with subscribers := FdSet.empty },[]⟩⟩
    unread := [] }

def smooth : Exchange := ⟨fun _ => false,fun _ => false,fun _ => false⟩

theorem field_round_trip_five :
    freshConnection.setGetSubscribe valueInt 3 5 smooth smooth smooth =
      some (.ok 5,.ok 5,.ok 5) :=
  (field_round_trip valueInt 3 freshConnection 5 smooth smooth smooth
    ⟨rfl,rfl,rfl,fun _ _ => rfl⟩ rfl (by decide +kernel)).1
    ⟨by decide,⟨rfl,rfl,rfl⟩,⟨rfl,rfl,rfl⟩,rfl,rfl⟩

/-- The default value is not stored, and a response prefix in parts is no value. -/
theorem field_value_lost :
    freshConnection.setGetSubscribe valueInt 3 0 smooth smooth smooth ≠
      some (.ok 0,.ok 0,.ok 0) ∧
    freshConnection.setGetSubscribe valueInt 3 5 { smooth with response := fun k => k == 3 }
      smooth smooth ≠ some (.ok 5,.ok 5,.ok 5) := by
  constructor
  · intro h
    have hnone : freshConnection.setGetSubscribe valueInt 3 0 smooth smooth smooth = none := by rfl
    rw [hnone] at h
    cases h
  · decide +kernel

end LapCom.Socket
