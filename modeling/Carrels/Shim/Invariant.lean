/-
The invariant of the client and the runtime, and the steps of the client.

A request is written on one connection, and the connection is not used for another one
before the answer to it has been read.  The invariant says at which stage each connection
is, and what the client still has to write and to read on its own.
-/
import Carrels.Lib.Run
import Carrels.Shim.Delivery

namespace Carrels
namespace Shim

open Vsock

variable {H : Type}

/-- Every request is dispatched at most once, with the operation and the object of the call,
and a call returns what `dispatch` gave for its request. -/
structure AnswersOwn (s : System H) : Prop where
  once : (s.dispatched.map Dispatched.call).Nodup
  own : ∀ d ∈ s.dispatched, ∃ r, s.issued[d.call]? = some r ∧ d.op = r.header.op ∧
    d.object = r.object
  answered : ∀ a ∈ s.returned, ∃ d ∈ s.dispatched, d.call = a.call ∧ d.status = a.status ∧
    d.response = a.object

/-! ## The invariant -/

/-- The bytes of answers that have not been read. -/
def Conn.replies (c : Conn) : List UInt8 := c.received ++ bytesIn c.toGuest

/-- The request that is on its way is the one of its call, and it has not been dispatched. -/
def Stage.Issued (s : System H) : Stage → Prop
  | .asked call r _ => s.issued[call]? = some r ∧ ∀ d ∈ s.dispatched, d.call ≠ call
  | _ => True

/-- The stage of a connection. -/
structure At (s : System H) (port : BitVec 32) (stage : Stage) : Prop where
  atStage : AtStage s.host port (s.conns port).toHost stage
  issued : stage.Issued s

/-- A socket that `connect` waits for. -/
inductive Connecting (s : System H) (port : BitVec 32) : Prop
  | waiting {stage : Stage} (hat : At s port stage) (hstage : stage = .requested ∨ stage = .off)
      (hestablished : (s.conns port).established = false)
      (hguest : ∀ x ∈ (s.conns port).toGuest, x.hdr.op ≠ opRw ∧ x.hdr.op ≠ opResponse)
      (hreceived : (s.conns port).received = [])
  | ready (hat : At s port .ready) (hreplies : (s.conns port).replies = [])

/-- The socket in `c.fd`. -/
inductive Calling (s : System H) (port : BitVec 32) : Phase → Prop
  | idle (hat : At s port .ready) (hreplies : (s.conns port).replies = []) : Calling s port .idle
  | writing {rest : List UInt8} {r : Request} (hat : At s port (.asked s.currentCall r rest))
      (hrest : rest ≠ []) (hreplies : (s.conns port).replies = []) :
      Calling s port (.writing rest)
  | waiting {r : Request} (hat : At s port (.asked s.currentCall r []))
      (hreplies : (s.conns port).replies = []) : Calling s port .readingHeader
  | answered {r : Request} {d : Dispatched} (hat : At s port .ready) (hd : d ∈ s.dispatched)
      (hcall : d.call = s.currentCall) (hlen : d.response.length = objectSize)
      (hreplies : (s.conns port).replies = [] ∨
        (s.conns port).replies = r.reply d.status d.response) :
      Calling s port .readingHeader
  | reading {d : Dispatched} (hat : At s port .ready) (hd : d ∈ s.dispatched)
      (hcall : d.call = s.currentCall) (hlen : d.response.length = objectSize)
      (hreplies : (s.conns port).replies = d.response) : Calling s port (.readingBody d.status)

/-- Where the client is. -/
inductive ClientAt (s : System H) : Prop
  | idle (hphase : s.phase = .idle) (hfd : s.fd = none)
  | starting {op : BitVec 16} {body : Body} (hphase : s.phase = .starting op body)
      (hfd : s.fd = none)
  | connecting {port : BitVec 32} {op : BitVec 16} {body : Body}
      (hphase : s.phase = .connecting port op body) (hfd : s.fd = none)
      (hconn : Connecting s port)
  | calling {port : BitVec 32} (hfd : s.fd = some port) (hconn : Calling s port s.phase)

/-- Nobody closes the connection. -/
def NoClose (queue : List Outgoing) : Prop :=
  ∀ q ∈ queue, q.op ≠ opShutdown ∧ q.op ≠ opRst

structure SystemInv (guestCid : BitVec 64) (s : System H) : Prop where
  cid : s.host.connected = true → s.host.peerCid = guestCid
  unused : ∀ port, (s.conns port).used = false →
    s.conns port = {} ∧ ¬ Serves s.host port ∧ s.socket ≠ some port
  closed : ∀ port, s.socket ≠ some port → ∃ stage, At s port stage
  noClose : ∀ port, s.socket = some port → NoClose (s.conns port).toHost
  client : ClientAt s
  own : AnswersOwn s

/-! ## Lemmas on the parts -/

theorem AnswersOwn.call_lt {s : System H} (h : AnswersOwn s) {d : Dispatched}
    (hd : d ∈ s.dispatched) : d.call < s.issued.length := by
  obtain ⟨r, hr, -⟩ := h.own d hd
  exact (List.getElem?_eq_some_iff.mp hr).1

/-- A packet that has no bytes and asks for no connection does not change the stage. -/
theorem AtStage.append {host : Vsock.State H} {port : BitVec 32} {queue : List Outgoing}
    {stage : Stage} (h : AtStage host port queue stage) {q : Outgoing} (hrw : q.op ≠ opRw)
    (hreq : q.op ≠ opRequest) : AtStage host port (queue ++ [q]) stage := by
  have hbytesOf : ∀ queue, bytesOf (queue ++ [q]) = bytesOf queue := fun queue => by
    rw [bytesOf_append, bytesOf_cons, if_neg hrw]
    exact List.append_nil _
  have hnoRequest : ∀ {queue}, NoRequest queue → NoRequest (queue ++ [q]) := fun h x hx => by
    obtain hx | hx := List.mem_append.mp hx
    · exact h x hx
    · exact List.mem_singleton.mp hx ▸ hreq
  cases h with
  | off hserves hrequest => exact .off hserves (hnoRequest hrequest)
  | requested hserves hrequest hbytes =>
    exact .requested hserves (hnoRequest hrequest) ((hbytesOf _).trans hbytes)
  | ready hserves hrequest hstream hbytes =>
    exact .ready hserves (hnoRequest hrequest) hstream ((hbytesOf _).trans hbytes)
  | asked hserves hrequest hbytes hrest hcall =>
    rw [← hbytesOf] at hbytes hrest
    refine .asked hserves (hnoRequest hrequest) hbytes hrest fun x hx hop => ?_
    obtain hx | hx := List.mem_append.mp hx
    · exact hcall x hx hop
    · exact absurd (List.mem_singleton.mp hx ▸ hop) hrw

/-- A connection without bytes on their way may carry a request. -/
theorem AtStage.ask {host : Vsock.State H} {port : BitVec 32} {queue : List Outgoing}
    (h : AtStage host port queue .ready) (call : Nat) (r : Request) :
    AtStage host port queue (.asked call r r.bytes) := by
  obtain _ | _ | ⟨hserves, hrequest, hstream, hbytes⟩ := h
  refine .asked hserves hrequest ?_ ?_ fun q hq hop hpayload => ?_
  · rw [hstream, hbytes]
    rfl
  · rw [hbytes]
    exact r.bytes_ne_nil
  · have hnil := List.flatMap_eq_nil_iff.mp hbytes q hq
    rw [if_pos hop] at hnil
    exact absurd hnil hpayload

theorem AtStage.write {host : Vsock.State H} {port : BitVec 32} {queue : List Outgoing}
    {call : Nat} {r : Request} {rest : List UInt8} (h : AtStage host port queue (.asked call r rest))
    (n : Nat) :
    AtStage host port (queue ++ [{ op := opRw, payload := rest.take n, call }])
      (.asked call r (rest.drop n)) := by
  obtain _ | _ | _ | ⟨hserves, hrequest, hbytes, hrest, hcall⟩ := h
  have hsplit : bytesOf (queue ++ [{ op := opRw, payload := rest.take n, call }]) ++ rest.drop n =
      bytesOf queue ++ rest := by
    rw [bytesOf_append, bytesOf_cons, if_pos rfl, List.append_assoc]
    exact congrArg (bytesOf queue ++ ·) (by simp [bytesOf])
  refine .asked hserves ?_ ?_ ?_ ?_
  · intro x hx
    obtain hx | hx := List.mem_append.mp hx
    · exact hrequest x hx
    · rw [List.mem_singleton.mp hx]
      exact show opRw ≠ opRequest by decide
  · rw [hsplit]
    exact hbytes
  · rw [hsplit]
    exact hrest
  · intro x hx
    obtain hx | hx := List.mem_append.mp hx
    · exact hcall x hx
    · rw [List.mem_singleton.mp hx]
      exact fun _ _ => rfl

theorem At.congr {s s' : System H} {port : BitVec 32} {stage : Stage} (h : At s port stage)
    (hat : AtStage s.host port (s.conns port).toHost stage →
      AtStage s'.host port (s'.conns port).toHost stage)
    (hissued : s'.issued = s.issued) (hdispatched : s'.dispatched = s.dispatched) :
    At s' port stage := by
  refine ⟨hat h.atStage, ?_⟩
  have hstage := h.issued
  cases stage with
  | asked call r unsent =>
    rw [Stage.Issued, hissued, hdispatched]
    exact hstage
  | _ => exact trivial

/-- The client does not see a change of its connection that keeps the stage and the
answers. -/
theorem Calling.congr {s s' : System H} {port : BitVec 32} {phase : Phase}
    (h : Calling s port phase)
    (hat : ∀ stage, AtStage s.host port (s.conns port).toHost stage →
      AtStage s'.host port (s'.conns port).toHost stage)
    (hissued : s'.issued = s.issued) (hdispatched : s'.dispatched = s.dispatched)
    (hreplies : (s'.conns port).replies = (s.conns port).replies) : Calling s' port phase := by
  have hcurrent : s'.currentCall = s.currentCall := by rw [System.currentCall, hissued]; rfl
  cases h with
  | idle hat' hempty =>
    exact .idle (hat'.congr (hat _) hissued hdispatched) (hreplies.trans hempty)
  | writing hat' hrest hempty =>
    rw [← hcurrent] at hat'
    exact .writing (hat'.congr (hat _) hissued hdispatched) hrest (hreplies.trans hempty)
  | waiting hat' hempty =>
    rw [← hcurrent] at hat'
    exact .waiting (hat'.congr (hat _) hissued hdispatched) (hreplies.trans hempty)
  | answered hat' hd hcall hlen hanswer =>
    rw [← hreplies] at hanswer
    exact .answered (hat'.congr (hat _) hissued hdispatched) (hdispatched ▸ hd)
      (hcall.trans hcurrent.symm) hlen hanswer
  | reading hat' hd hcall hlen hanswer =>
    exact .reading (hat'.congr (hat _) hissued hdispatched) (hdispatched ▸ hd)
      (hcall.trans hcurrent.symm) hlen (hreplies.trans hanswer)

theorem At.issue {s s' : System H} {port : BitVec 32} {stage : Stage} (h : At s port stage)
    (hhost : s'.host = s.host) (hconns : s'.conns port = s.conns port)
    (hissued : s.issued <+: s'.issued) (hdispatched : s'.dispatched = s.dispatched) :
    At s' port stage := by
  refine ⟨by rw [hhost, hconns]; exact h.atStage, ?_⟩
  have hstage := h.issued
  cases stage with
  | asked call r unsent =>
    obtain ⟨hr, hfresh⟩ := hstage
    obtain ⟨later, hlater⟩ := hissued
    refine ⟨?_, hdispatched ▸ hfresh⟩
    rw [← hlater, List.getElem?_append_left (List.getElem?_eq_some_iff.mp hr).1]
    exact hr
  | _ => exact trivial

theorem AnswersOwn.issue {s s' : System H} (h : AnswersOwn s) (hissued : s.issued <+: s'.issued)
    (hdispatched : s'.dispatched = s.dispatched) (hreturned : s'.returned = s.returned) :
    AnswersOwn s' := by
  refine ⟨hdispatched ▸ h.once, fun d hd => ?_, fun a ha => ?_⟩
  · rw [hdispatched] at hd
    obtain ⟨r, hr, hop, hobject⟩ := h.own d hd
    obtain ⟨later, hlater⟩ := hissued
    refine ⟨r, ?_, hop, hobject⟩
    rw [← hlater, List.getElem?_append_left (h.call_lt hd)]
    exact hr
  · rw [hdispatched]
    exact h.answered a (hreturned ▸ ha)

theorem SystemInv.client_step {guestCid : BitVec 64} {s s' : System H}
    (h : SystemInv guestCid s) (port : BitVec 32) (hhost : s'.host = s.host)
    (hconns : ∀ i, i ≠ port → s'.conns i = s.conns i) (hused : (s'.conns port).used = true)
    (hissued : s.issued <+: s'.issued) (hdispatched : s'.dispatched = s.dispatched)
    (hbefore : ∀ i, s.socket = some i → i = port) (hafter : ∀ i, s'.socket = some i → i = port)
    (hnoClose : s'.socket = some port → NoClose (s'.conns port).toHost)
    (hclosed : s'.socket ≠ some port → ∃ stage, At s' port stage) (hclient : ClientAt s')
    (hown : AnswersOwn s') : SystemInv guestCid s' where
  cid := hhost ▸ h.cid
  unused i hi := by
    have hne : i ≠ port := fun heq => by
      rw [heq, hused] at hi
      exact Bool.noConfusion hi
    rw [hconns i hne] at hi ⊢
    obtain ⟨hempty, hserves, -⟩ := h.unused i hi
    exact ⟨hempty, hhost ▸ hserves, fun hs => hne (hafter i hs)⟩
  closed i hi := by
    by_cases hne : i = port
    · exact hne ▸ hclosed (hne ▸ hi)
    · obtain ⟨stage, hat⟩ := h.closed i fun hs => hne (hbefore i hs)
      exact ⟨stage, hat.issue hhost (hconns i hne) hissued hdispatched⟩
  noClose i hi := by
    obtain rfl := hafter i hi
    exact hnoClose hi
  client := hclient
  own := hown

/-! ## Steps of the client -/

section Client

variable {guestCid : BitVec 64} {s : System H} {port : BitVec 32}

theorem setConn_self (s : System H) (port : BitVec 32) (c : Conn) :
    (s.setConn port c).conns port = c := if_pos rfl

theorem setConn_of_ne (s : System H) {port i : BitVec 32} (c : Conn) (h : i ≠ port) :
    (s.setConn port c).conns i = s.conns i := if_neg h

theorem send_self (s : System H) (port : BitVec 32) (op : BitVec 16) (payload : List UInt8) :
    (s.send port op payload).conns port =
      { s.conns port with
        toHost := (s.conns port).toHost ++ [{ op, payload, call := s.currentCall }] } :=
  if_pos rfl

theorem send_of_ne (s : System H) {port i : BitVec 32} (op : BitVec 16) (payload : List UInt8)
    (h : i ≠ port) : (s.send port op payload).conns i = s.conns i := if_neg h

theorem NoClose.append {queue : List Outgoing} (h : NoClose queue) {q : Outgoing}
    (hq : q.op ≠ opShutdown ∧ q.op ≠ opRst) : NoClose (queue ++ [q]) := fun x hx => by
  obtain hx | hx := List.mem_append.mp hx
  · exact h x hx
  · exact List.mem_singleton.mp hx ▸ hq

theorem SystemInv.beginWriting (h : SystemInv guestCid s) (hsocket : s.socket = some port)
    (hused : (s.conns port).used = true) (hat : At s port .ready)
    (hreplies : (s.conns port).replies = []) (op : BitVec 16) (body : Body) :
    SystemInv guestCid (s.beginWriting port op body) := by
  have hprefix : s.issued <+: (s.beginWriting port op body).issued := List.prefix_append _ _
  have hcurrent : (s.beginWriting port op body).currentCall = s.issued.length := by
    simp [System.currentCall, System.beginWriting]
  refine h.client_step port rfl (fun _ _ => rfl) hused hprefix rfl
    (fun i hi => Option.some.inj (hi.symm.trans hsocket)) (fun i hi => (Option.some.inj hi).symm)
    (fun _ => h.noClose port hsocket) (fun hs => absurd rfl hs) ?_ (h.own.issue hprefix rfl rfl)
  refine .calling rfl (.writing (r := rpcRequest (s.next + 1) op body)
    ⟨hat.atStage.ask _ _, ?_, ?_⟩ (Request.bytes_ne_nil _) hreplies)
  · rw [hcurrent]
    exact List.getElem?_concat_length
  · intro d hd
    rw [hcurrent]
    exact Nat.ne_of_lt (h.own.call_lt hd)

theorem SystemInv.closeSocket (h : SystemInv guestCid s) (hsocket : s.socket = some port)
    (hused : (s.conns port).used = true) {stage : Stage} (hat : At s port stage)
    (shutdown : Bool) : SystemInv guestCid (s.closeSocket port shutdown) := by
  have hnone : ∀ i, (s.closeSocket port shutdown).socket ≠ some i := fun _ hi => nomatch hi
  have hconns : (s.closeSocket port shutdown).conns port =
      { s.conns port with
        toHost := (s.conns port).toHost ++
          if shutdown then [{ op := opShutdown, call := s.currentCall }] else []
        received := [] } := by
    cases shutdown with
    | true => simp [System.closeSocket, System.send, System.setConn]
    | false => simp [System.closeSocket, System.setConn]
  have hothers : ∀ i, i ≠ port → (s.closeSocket port shutdown).conns i = s.conns i := fun i hi => by
    cases shutdown with
    | true => simp [System.closeSocket, System.send, System.setConn, hi]
    | false => simp [System.closeSocket, System.setConn, hi]
  have hhistory : (s.closeSocket port shutdown).host = s.host ∧
      (s.closeSocket port shutdown).issued = s.issued ∧
      (s.closeSocket port shutdown).dispatched = s.dispatched ∧
      (s.closeSocket port shutdown).returned = s.returned := by
    cases shutdown with
    | true => exact ⟨rfl, rfl, rfl, rfl⟩
    | false => exact ⟨rfl, rfl, rfl, rfl⟩
  obtain ⟨hhost, hissued, hdispatched, hreturned⟩ := hhistory
  have hprefix : s.issued <+: (s.closeSocket port shutdown).issued := hissued ▸ List.prefix_refl _
  refine h.client_step port hhost hothers (by rw [hconns]; exact hused) hprefix hdispatched
    (fun i hi => Option.some.inj (hi.symm.trans hsocket)) (fun i hi => absurd hi (hnone i))
    (fun hi => absurd hi (hnone port)) (fun _ => ⟨stage, hat.congr (fun hat => ?_) hissued
      hdispatched⟩) (.idle rfl rfl) (h.own.issue hprefix hdispatched hreturned)
  rw [hhost, hconns]
  cases shutdown with
  | true => exact hat.append (show opShutdown ≠ opRw by decide) (show opShutdown ≠ opRequest by decide)
  | false => simpa using hat

theorem SystemInv.connect (h : SystemInv guestCid s) (hsocket : s.socket = none) (hfd : s.fd = none)
    (hunused : (s.conns port).used = false) (op : BitVec 16) (body : Body) :
    SystemInv guestCid
      { (s.setConn port { s.conns port with used := true }).send port opRequest [] with
        phase := .connecting port op body } := by
  obtain ⟨hempty, hserves, -⟩ := h.unused port hunused
  let s' : System H :=
    { (s.setConn port { s.conns port with used := true }).send port opRequest [] with
      phase := .connecting port op body }
  have hconns : s'.conns port =
      { used := true, toHost := [{ op := opRequest, call := s.currentCall }] } := by
    show ((s.setConn port { s.conns port with used := true }).send port opRequest []).conns port = _
    rw [send_self, setConn_self, hempty]
    rfl
  have hothers : ∀ i, i ≠ port → s'.conns i = s.conns i := fun i hi => by
    show ((s.setConn port { s.conns port with used := true }).send port opRequest []).conns i = _
    rw [send_of_ne _ _ _ hi, setConn_of_ne _ _ hi]
  show SystemInv guestCid s'
  refine h.client_step port rfl hothers (by rw [hconns]) (List.prefix_refl _) rfl
    (fun i hi => nomatch hsocket.symm.trans hi)
    (fun i hi => (Option.some.inj hi).symm) (fun _ => ?_) (fun hi => absurd rfl hi) ?_
    (h.own.issue (List.prefix_refl _) rfl rfl)
  · rw [hconns]
    intro q hq
    rw [List.mem_singleton.mp hq]
    exact ⟨show opRequest ≠ opShutdown by decide, show opRequest ≠ opRst by decide⟩
  · have hat : At s' port .requested := by
      refine ⟨?_, trivial⟩
      rw [hconns]
      exact .requested hserves (fun q hq => absurd hq List.not_mem_nil) rfl
    refine .connecting rfl hfd (.waiting hat (.inl rfl) ?_ ?_ ?_)
    all_goals rw [hconns]
    exact fun x hx => absurd hx List.not_mem_nil

theorem Calling.socket {phase : Phase} (hconn : Calling s port phase) (hphase : s.phase = phase)
    (hfd : s.fd = some port) : s.socket = some port := by
  cases hconn with
  | _ =>
    rw [System.socket, hphase]
    exact hfd

theorem Calling.at {phase : Phase} (hconn : Calling s port phase) : ∃ stage, At s port stage := by
  cases hconn with
  | idle hat => exact ⟨_, hat⟩
  | writing hat => exact ⟨_, hat⟩
  | waiting hat => exact ⟨_, hat⟩
  | answered hat => exact ⟨_, hat⟩
  | reading hat => exact ⟨_, hat⟩

theorem AtStage.serves {host : Vsock.State H} {queue : List Outgoing} {stage : Stage}
    (h : AtStage host port queue stage) (hstage : stage ≠ .off ∧ stage ≠ .requested) :
    Serves host port := by
  cases h with
  | off => exact absurd rfl hstage.1
  | requested => exact absurd rfl hstage.2
  | ready hserves => exact hserves
  | asked hserves => exact hserves

theorem Calling.serves {phase : Phase} (hconn : Calling s port phase) : Serves s.host port := by
  cases hconn with
  | idle hat => exact hat.atStage.serves ⟨Stage.noConfusion, Stage.noConfusion⟩
  | writing hat => exact hat.atStage.serves ⟨Stage.noConfusion, Stage.noConfusion⟩
  | waiting hat => exact hat.atStage.serves ⟨Stage.noConfusion, Stage.noConfusion⟩
  | answered hat => exact hat.atStage.serves ⟨Stage.noConfusion, Stage.noConfusion⟩
  | reading hat => exact hat.atStage.serves ⟨Stage.noConfusion, Stage.noConfusion⟩

theorem SystemInv.used (h : SystemInv guestCid s) (hsocket : s.socket = some port) :
    (s.conns port).used = true := by
  cases hused : (s.conns port).used with
  | true => rfl
  | false => exact absurd hsocket (h.unused port hused).2.2

/-- A step of a call that keeps its socket, and sends nothing that closes it. -/
theorem SystemInv.calling_step (h : SystemInv guestCid s) {s' : System H}
    (hsocket : s.socket = some port) (hfd : s'.fd = some port) (hhost : s'.host = s.host)
    (hconns : ∀ i, i ≠ port → s'.conns i = s.conns i)
    (hused : (s'.conns port).used = (s.conns port).used) (hissued : s'.issued = s.issued)
    (hdispatched : s'.dispatched = s.dispatched)
    (hnoClose : NoClose (s.conns port).toHost → NoClose (s'.conns port).toHost)
    (hconn : Calling s' port s'.phase) (hown : AnswersOwn s') : SystemInv guestCid s' := by
  have hsocket' := hconn.socket rfl hfd
  refine h.client_step port hhost hconns (hused.trans (h.used hsocket))
    (hissued ▸ List.prefix_refl _) hdispatched
    (fun i hi => Option.some.inj (hi.symm.trans hsocket))
    (fun i hi => Option.some.inj (hi.symm.trans hsocket'))
    (fun _ => hnoClose (h.noClose port hsocket)) (fun hs => absurd hsocket' hs)
    (.calling hfd hconn) hown

theorem SystemInv.write (h : SystemInv guestCid s) {rest : List UInt8}
    (hphase : s.phase = .writing rest) (hfd : s.fd = some port) (hconn : Calling s port s.phase)
    {n : Nat} (hn : n ≤ rest.length) :
    SystemInv guestCid
      { s.send port opRw (rest.take n) with
        phase := if rest.length = n then .readingHeader else .writing (rest.drop n) } := by
  have hsocket := hconn.socket rfl hfd
  let s' : System H :=
    { s.send port opRw (rest.take n) with
      phase := if rest.length = n then .readingHeader else .writing (rest.drop n) }
  have hself : s'.conns port =
      { s.conns port with
        toHost := (s.conns port).toHost ++
          [{ op := opRw, payload := rest.take n, call := s.currentCall }] } :=
    send_self s port _ _
  have hown : AnswersOwn s' := h.own.issue (List.prefix_refl _) rfl rfl
  rw [hphase] at hconn
  cases hconn with
  | @writing _ r hat _ hreplies =>
    have hat' : At s' port (.asked s'.currentCall r (rest.drop n)) := by
      refine ⟨?_, hat.issued⟩
      rw [hself]
      exact hat.atStage.write n
    have hreplies' : (s'.conns port).replies = [] := by
      rw [hself]
      exact hreplies
    have hcalling : Calling s' port s'.phase := by
      show Calling s' port (if rest.length = n then _ else _)
      split
      case isTrue hlast =>
        rw [← hlast, List.drop_length] at hat'
        exact .waiting hat' hreplies'
      case isFalse hmore =>
        refine .writing hat' (fun hnil => ?_) hreplies'
        have := List.drop_eq_nil_iff.mp hnil
        omega
    refine h.calling_step hsocket hfd rfl (fun i hi => send_of_ne s _ _ hi) ?_ rfl rfl ?_
      hcalling hown
    · rw [hself]
    · rw [hself]
      exact fun hno => hno.append ⟨show opRw ≠ opShutdown by decide, show opRw ≠ opRst by decide⟩

theorem SystemInv.credit (h : SystemInv guestCid s) (hfd : s.fd = some port)
    (hconn : Calling s port s.phase) {op : BitVec 16}
    (hop : op = opCreditRequest ∨ op = opCreditUpdate) :
    SystemInv guestCid (s.send port op []) := by
  have hother : op ≠ opRw ∧ op ≠ opRequest ∧ op ≠ opShutdown ∧ op ≠ opRst := by
    obtain rfl | rfl := hop
    all_goals decide
  obtain ⟨hrw, hreq, hclose⟩ := hother
  have hself := send_self s port op []
  have hcalling : Calling (s.send port op []) port s.phase := by
    refine hconn.congr (fun stage hat => ?_) rfl rfl ?_
    · rw [hself]
      exact hat.append hrw hreq
    · rw [hself]
      rfl
  refine h.calling_step (hconn.socket rfl hfd) hfd rfl (fun i hi => send_of_ne s _ _ hi) ?_ rfl rfl
    ?_ hcalling (h.own.issue (List.prefix_refl _) rfl rfl)
  · rw [hself]
  · rw [hself]
    exact fun hno => hno.append hclose

theorem SystemInv.readHeader (h : SystemInv guestCid s) (hphase : s.phase = .readingHeader)
    (hfd : s.fd = some port) (hconn : Calling s port s.phase)
    (hlen : rpcHeaderSize ≤ (s.conns port).received.length) :
    SystemInv guestCid
      { s.setConn port
          { s.conns port with received := (s.conns port).received.drop rpcHeaderSize } with
        phase := .readingBody (RpcHeader.load (s.conns port).received).status } := by
  have hsocket := hconn.socket rfl hfd
  let s' : System H :=
    { s.setConn port
        { s.conns port with received := (s.conns port).received.drop rpcHeaderSize } with
      phase := .readingBody (RpcHeader.load (s.conns port).received).status }
  have hself : s'.conns port =
      { s.conns port with received := (s.conns port).received.drop rpcHeaderSize } :=
    setConn_self s port _
  have hempty : (s.conns port).replies ≠ [] := fun hnil => by
    obtain ⟨hreceived, -⟩ := List.append_eq_nil_iff.mp hnil
    rw [hreceived] at hlen
    exact absurd hlen (by decide)
  have hown : AnswersOwn s' := h.own.issue (List.prefix_refl _) rfl rfl
  rw [hphase] at hconn
  cases hconn with
  | waiting _ hreplies => exact absurd hreplies hempty
  | @answered r d hat hd hcall hsize hreplies =>
    obtain hnil | hreply := hreplies
    · exact absurd hnil hempty
    · have hheader : RpcHeader.load (s.conns port).received =
          { r.header with status := d.status, length := BitVec.ofNat 32 objectSize } :=
        RpcHeader.load_prefix hreply hlen
      have hrest : (s'.conns port).replies = d.response := by
        have hdrop := congrArg (List.drop rpcHeaderSize) hreply
        rw [Conn.replies, List.drop_append_of_le_length hlen, Request.reply,
          ← RpcHeader.length_bytes, List.drop_left, RpcHeader.length_bytes] at hdrop
        rw [hself]
        exact hdrop
      have hat' : At s' port .ready := by
        refine ⟨?_, trivial⟩
        rw [hself]
        exact hat.atStage
      have hcalling : Calling s' port s'.phase := by
        show Calling s' port (.readingBody (RpcHeader.load (s.conns port).received).status)
        rw [hheader]
        exact .reading hat' hd hcall hsize hrest
      refine h.calling_step hsocket hfd rfl (fun i hi => setConn_of_ne s _ hi) ?_ rfl rfl ?_
        hcalling hown
      · rw [hself]
      · rw [hself]
        exact id

theorem SystemInv.readBody (h : SystemInv guestCid s) {status : BitVec 32}
    (hphase : s.phase = .readingBody status) (hfd : s.fd = some port)
    (hconn : Calling s port s.phase) (hlen : objectSize ≤ (s.conns port).received.length) :
    SystemInv guestCid
      { s.setConn port
          { s.conns port with received := (s.conns port).received.drop objectSize } with
        phase := .idle
        returned := s.returned ++
          [{ call := s.currentCall, status
             object := (s.conns port).received.take objectSize }] } := by
  have hsocket := hconn.socket rfl hfd
  let s' : System H :=
    { s.setConn port
        { s.conns port with received := (s.conns port).received.drop objectSize } with
      phase := .idle
      returned := s.returned ++
        [{ call := s.currentCall, status
           object := (s.conns port).received.take objectSize }] }
  have hself : s'.conns port =
      { s.conns port with received := (s.conns port).received.drop objectSize } :=
    setConn_self s port _
  rw [hphase] at hconn
  cases hconn with
  | @reading d hat hd hcall hsize hreplies =>
    have htake : (s.conns port).received.take objectSize = d.response := by
      have happend : (s.conns port).replies.take objectSize =
          (s.conns port).received.take objectSize := List.take_append_of_le_length hlen
      rw [← happend, hreplies, List.take_of_length_le (Nat.le_of_eq hsize)]
    have hrest : (s'.conns port).replies = [] := by
      rw [hself, Conn.replies, ← List.drop_append_of_le_length hlen]
      exact (congrArg (List.drop objectSize) hreplies).trans
        (List.drop_eq_nil_of_le (Nat.le_of_eq hsize))
    have hown : AnswersOwn s' := by
      refine ⟨h.own.once, h.own.own, fun a ha => ?_⟩
      obtain ha | ha := List.mem_append.mp ha
      · exact h.own.answered a ha
      · rw [List.mem_singleton.mp ha]
        exact ⟨d, hd, hcall, rfl, htake.symm⟩
    have hat' : At s' port .ready := by
      refine ⟨?_, trivial⟩
      rw [hself]
      exact hat.atStage
    refine h.calling_step hsocket hfd rfl (fun i hi => setConn_of_ne s _ hi) ?_ rfl rfl ?_
      (.idle hat' hrest) hown
    · rw [hself]
    · rw [hself]
      exact id

end Client

end Shim
end Carrels
