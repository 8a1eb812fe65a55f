/-
Each call gets the answer to its own request.

A call that fails closes its socket, so what is still on its way can reach the runtime but no
later call.  A packet that reaches the runtime moves the stage of its own connection and of
no other.
-/
import Carrels.Shim.Invariant

namespace Carrels
namespace Shim

open StepSystem Vsock

variable {H : Type}

/-! ## Deliveries -/

section Deliver

variable {guestCid : BitVec 64} {s s' : System H} {port : BitVec 32}

/-- The runtime does not serve the socket, or nothing has happened to it. -/
def Undisturbed (s s' : System H) (port : BitVec 32) : Prop :=
  Serves s.host port ∧ s'.host = s.host ∧ s'.dispatched = s.dispatched ∨
    ¬ Serves s.host port ∧ ¬ Serves s'.host port

/-- A socket that is not served is at one of two stages, whatever the runtime does. -/
theorem AtStage.unserved {host host' : Vsock.State H} {queue : List Outgoing} {stage : Stage}
    (h : AtStage host port queue stage) (hserves : ¬ Serves host port)
    (hserves' : ¬ Serves host' port) :
    AtStage host' port queue stage ∧ (stage = .off ∨ stage = .requested) := by
  cases h with
  | off _ hrequest => exact ⟨.off hserves' hrequest, .inl rfl⟩
  | requested _ hrequest hbytes => exact ⟨.requested hserves' hrequest hbytes, .inr rfl⟩
  | ready hserved => exact absurd hserved hserves
  | asked hserved => exact absurd hserved hserves

theorem At.frame {stage : Stage} (h : At s port stage)
    (htoHost : (s'.conns port).toHost = (s.conns port).toHost) (hissued : s'.issued = s.issued)
    (hhost : Undisturbed s s' port) : At s' port stage := by
  obtain ⟨hat, hstage⟩ := h
  rw [← htoHost] at hat
  obtain ⟨-, hhost, hdispatched⟩ | ⟨hserves, hserves'⟩ := hhost
  · refine ⟨hhost ▸ hat, ?_⟩
    cases stage with
    | asked call r unsent =>
      rw [Stage.Issued, hissued, hdispatched]
      exact hstage
    | _ => exact trivial
  · obtain ⟨hat', hstage'⟩ := hat.unserved hserves hserves'
    refine ⟨hat', ?_⟩
    obtain rfl | rfl := hstage'
    · exact trivial
    · exact trivial

/-- The client's own connection, when something happens elsewhere. -/
theorem ClientAt.frame (h : ClientAt s) (hphase : s'.phase = s.phase) (hfd : s'.fd = s.fd)
    (hissued : s'.issued = s.issued)
    (hconns : ∀ i, s.socket = some i → s'.conns i = s.conns i ∧ Undisturbed s s' i) :
    ClientAt s' := by
  cases h with
  | idle hidle hnone => exact .idle (hphase.trans hidle) (hfd.trans hnone)
  | starting hstarting hnone => exact .starting (hphase.trans hstarting) (hfd.trans hnone)
  | @connecting port op body hconnecting hnone hconn =>
    have hsocket : s.socket = some port := by rw [System.socket, hconnecting]
    obtain ⟨hsame, hhost⟩ := hconns port hsocket
    have htoHost := congrArg Conn.toHost hsame
    refine .connecting (hphase.trans hconnecting) (hfd.trans hnone) ?_
    cases hconn with
    | waiting hat hstage hestablished hguest hreceived =>
      rw [← hsame] at hestablished hguest hreceived
      exact .waiting (hat.frame htoHost hissued hhost) hstage hestablished hguest hreceived
    | ready hat hreplies =>
      rw [← hsame] at hreplies
      exact .ready (hat.frame htoHost hissued hhost) hreplies
  | @calling port hport hconn =>
    obtain ⟨hsame, hhost⟩ := hconns port (hconn.socket rfl hport)
    refine .calling (hfd.trans hport) (hphase ▸ ?_)
    obtain ⟨hserves, hsamehost, hdispatched⟩ | ⟨hserves, -⟩ := hhost
    · exact hconn.congr (fun stage hat => by rwa [hsamehost, hsame]) hissued hdispatched
        (by rw [hsame])
    · exact absurd hconn.serves hserves

theorem Conn.take_toHost (c : Conn) (x : Packet) : (c.take x).toHost = c.toHost := by
  unfold Conn.take
  split
  · rfl
  · split <;> rfl

theorem Conn.take_used (c : Conn) (x : Packet) : (c.take x).used = c.used := by
  unfold Conn.take
  split
  · rfl
  · split <;> rfl

theorem Conn.take_replies {c : Conn} {x : Packet} {rest : List Packet} (h : c.toGuest = x :: rest) :
    ({ c with toGuest := rest }.take x).replies = c.replies := by
  unfold Conn.take Conn.replies
  rw [h, bytesIn_cons]
  split
  case isTrue hop =>
    rw [if_neg (by rw [hop]; decide)]
    rfl
  case isFalse =>
    split
    case isTrue hop => exact List.append_assoc _ _ _
    case isFalse hop => rfl

theorem SystemInv.toGuest (h : SystemInv guestCid s) {x : Packet} {rest : List Packet}
    (hguest : (s.conns port).toGuest = x :: rest) :
    SystemInv guestCid
      (s.setConn port
        (if s.socket = some port then { s.conns port with toGuest := rest }.take x
          else { s.conns port with toGuest := rest })) := by
  have hused : (s.conns port).used = true := by
    cases hused : (s.conns port).used with
    | true => rfl
    | false =>
      rw [(h.unused port hused).1] at hguest
      exact absurd hguest.symm (List.cons_ne_nil _ _)
  split
  case isTrue hsocket =>
    let c := { s.conns port with toGuest := rest }.take x
    have hself : (s.setConn port c).conns port = c := setConn_self s port c
    have htoHost : ((s.setConn port c).conns port).toHost = (s.conns port).toHost := by
      rw [hself]
      exact Conn.take_toHost _ x
    have hreplies : ((s.setConn port c).conns port).replies = (s.conns port).replies := by
      rw [hself]
      exact Conn.take_replies hguest
    have hat : ∀ {stage}, At s port stage → At (s.setConn port c) port stage := fun hat =>
      hat.congr (fun hat => by rw [htoHost]; exact hat) rfl rfl
    refine h.client_step port rfl (fun i hi => setConn_of_ne s c hi) ?_ (List.prefix_refl _) rfl
      (fun i hi => Option.some.inj (hi.symm.trans hsocket))
      (fun i hi => Option.some.inj (hi.symm.trans hsocket)) (fun _ => ?_)
      (fun hs => absurd hsocket hs) ?_ (h.own.issue (List.prefix_refl _) rfl rfl)
    · rw [hself]
      exact (Conn.take_used _ x).trans hused
    · rw [htoHost]
      exact h.noClose port hsocket
    · cases h.client with
      | idle hidle hnone =>
        rw [System.socket, hidle, hnone] at hsocket
        cases hsocket
      | starting hstarting hnone =>
        rw [System.socket, hstarting, hnone] at hsocket
        cases hsocket
      | @connecting i op body hconnecting hnone hconn =>
        rw [System.socket, hconnecting] at hsocket
        cases hsocket
        refine .connecting hconnecting hnone ?_
        cases hconn with
        | waiting hwaiting hstage hestablished hquiet hreceived =>
          rw [hguest, List.forall_mem_cons] at hquiet
          have hsame : c = { s.conns port with toGuest := rest } := by
            show Conn.take _ _ = _
            unfold Conn.take
            rw [if_neg hquiet.1.2, if_neg hquiet.1.1]
          refine .waiting (hat hwaiting) hstage ?_ ?_ ?_
          all_goals rw [hself, hsame]
          · exact hestablished
          · exact hquiet.2
          · exact hreceived
        | ready hready hempty => exact .ready (hat hready) (hreplies.trans hempty)
      | @calling i hport hconn =>
        have hsocket' := hconn.socket rfl hport
        rw [hsocket] at hsocket'
        cases hsocket'
        exact .calling hport
          (hconn.congr (fun _ hat => by rw [htoHost]; exact hat) rfl rfl hreplies)
  case isFalse hsocket =>
    let c := { s.conns port with toGuest := rest }
    have hself : (s.setConn port c).conns port = c := setConn_self s port c
    have hne : ∀ i, s.socket = some i → i ≠ port := fun i hi heq => hsocket (heq ▸ hi)
    refine ⟨h.cid, fun i hi => ?_, fun i hi => ?_, fun i hi => ?_, ?_,
      h.own.issue (List.prefix_refl _) rfl rfl⟩
    · have hother : i ≠ port := fun heq => by
        rw [heq, hself] at hi
        exact Bool.noConfusion (hused.symm.trans hi)
      rw [setConn_of_ne s c hother] at hi ⊢
      exact h.unused i hi
    · obtain ⟨stage, hat⟩ := h.closed i hi
      refine ⟨stage, hat.congr (fun hat => ?_) rfl rfl⟩
      by_cases heq : i = port
      · subst heq
        rw [hself]
        exact hat
      · rw [setConn_of_ne s c heq]
        exact hat
    · rw [setConn_of_ne s c (hne i hi)]
      exact h.noClose i hi
    · refine h.client.frame rfl rfl rfl fun i hi => ⟨setConn_of_ne s c (hne i hi), ?_⟩
      by_cases hserves : Serves s.host i
      · exact .inl ⟨hserves, rfl, rfl⟩
      · exact .inr ⟨hserves, hserves⟩

variable {hd : Handler H} {bufferSize : Nat} {accept : Bool} {q : Outgoing}
  {rest : List Outgoing} {host' : Vsock.State H}

theorem afterPacket_elsewhere {i : BitVec 32} (hi : i ≠ port)
    (hnews : ∀ x ∈ news s.host host', x.hdr.dstPort ≠ i) :
    (s.afterPacket hd port q rest host').conns i = s.conns i := by
  have hnone : (news s.host host').filter (fun x => x.hdr.dstPort == i) = [] :=
    List.filter_eq_nil_iff.mpr fun x hx => by simpa using hnews x hx
  dsimp only [System.afterPacket]
  rw [hnone, List.append_nil, if_neg hi]

theorem afterPacket_toHost : ((s.afterPacket hd port q rest host').conns port).toHost = rest :=
  if_pos rfl

theorem afterPacket_same (hcalls : host'.calls = s.host.calls) :
    (s.afterPacket hd port q rest host').dispatched = s.dispatched := by
  dsimp only [System.afterPacket]
  rw [hcalls, List.drop_length]
  exact List.append_nil _

theorem afterPacket_dispatched {op : BitVec 16} {object : List UInt8} {handler : H}
    {status : BitVec 32} {response : List UInt8}
    (hcalls : host'.calls = s.host.calls ++ [(op, object)])
    (hdispatch : hd.dispatch s.host.handler op object = some (handler, status, response)) :
    (s.afterPacket hd port q rest host').dispatched =
      s.dispatched ++ [{ call := q.call, op, object, status, response }] := by
  dsimp only [System.afterPacket]
  rw [hcalls, List.drop_left, List.filterMap_cons]
  dsimp only
  rw [hdispatch]
  rfl

theorem afterPacket_replies : ((s.afterPacket hd port q rest host').conns port).replies =
    (s.conns port).replies ++
      bytesIn ((news s.host host').filter fun x => x.hdr.dstPort == port) := by
  dsimp only [System.afterPacket, Conn.replies]
  rw [bytesIn_append, List.append_assoc]

/-- What a packet that the runtime takes does to its connection. -/
inductive Advanced (s s' : System H) (port : BitVec 32) (q : Outgoing) (stage : Stage) : Prop
  | kept (hat : At s' port stage) (hdispatched : s'.dispatched = s.dispatched)
      (hreplies : (s'.conns port).replies = (s.conns port).replies)
      (hguest : ∀ x ∈ (s'.conns port).toGuest,
        x ∈ (s.conns port).toGuest ∨ x.hdr.op ≠ opRw ∧ x.hdr.op ≠ opResponse)
  | ended (hat : At s' port .off) (hdispatched : s'.dispatched = s.dispatched)
      (hop : q.op = opRequest ∧ stage = .requested ∨ q.op = opShutdown ∨ q.op = opRst)
      (hguest : ∀ x ∈ (s'.conns port).toGuest,
        x ∈ (s.conns port).toGuest ∨ x.hdr.op ≠ opRw ∧ x.hdr.op ≠ opResponse)
  | accepted (hstage : stage = .requested) (hat : At s' port .ready)
      (hdispatched : s'.dispatched = s.dispatched)
      (hreplies : (s'.conns port).replies = (s.conns port).replies)
  | answered {r : Request} {d : Dispatched} (hstage : stage = .asked q.call r [])
      (hat : At s' port .ready) (hdispatched : s'.dispatched = s.dispatched ++ [d])
      (hcall : d.call = q.call) (hop : d.op = r.header.op) (hobject : d.object = r.object)
      (hlen : d.response.length = objectSize)
      (hreplies : (s'.conns port).replies = (s.conns port).replies ∨
        (s'.conns port).replies = (s.conns port).replies ++ r.reply d.status d.response)

theorem advanced_of_outcome {stage : Stage} (hat : At s port stage)
    (hout : Outcome hd port s.host host' q rest stage) :
    Advanced s (s.afterPacket hd port q rest host') port q stage := by
  have hguest : (∀ x ∈ news s.host host', x.hdr.op ≠ opRw ∧ x.hdr.op ≠ opResponse) →
      ∀ x ∈ ((s.afterPacket hd port q rest host').conns port).toGuest,
        x ∈ (s.conns port).toGuest ∨ x.hdr.op ≠ opRw ∧ x.hdr.op ≠ opResponse :=
    fun hnews x hx => by
      obtain hx | hx := List.mem_append.mp hx
      · exact .inl hx
      · exact .inr (hnews x (List.mem_filter.mp hx).1)
  have hquiet : (∀ x ∈ news s.host host', x.hdr.op ≠ opRw) →
      ((s.afterPacket hd port q rest host').conns port).replies = (s.conns port).replies :=
    fun hnews => by
      rw [afterPacket_replies, bytesIn_eq_nil fun x hx => hnews x (List.mem_filter.mp hx).1]
      exact List.append_nil _
  cases hout with
  | kept hat' hcalls hnews =>
    refine .kept ⟨?_, ?_⟩ (afterPacket_same hcalls) (hquiet fun x hx => (hnews x hx).1)
      (hguest hnews)
    · rw [afterPacket_toHost]
      exact hat'
    · have hissued := hat.issued
      cases stage with
      | asked call r unsent =>
        rw [Stage.Issued, afterPacket_same hcalls]
        exact hissued
      | _ => exact trivial
  | ended hat' hcalls hop hnews =>
    refine .ended ⟨?_, trivial⟩ (afterPacket_same hcalls) hop (hguest hnews)
    rw [afterPacket_toHost]
    exact hat'
  | accepted hat' hcalls hnews =>
    refine .accepted rfl ⟨?_, trivial⟩ (afterPacket_same hcalls) (hquiet fun x hx => ?_)
    · rw [afterPacket_toHost]
      exact hat'
    · rw [hnews x hx]
      decide
  | answered hat' hdispatch hcalls hnews =>
    refine .answered rfl ⟨?_, trivial⟩ (afterPacket_dispatched hcalls hdispatch) rfl rfl rfl
      (hd.length_response hdispatch) ?_
    · rw [afterPacket_toHost]
      exact hat'
    · obtain hnone | ⟨x, hone, hop, hpayload⟩ := hnews
      · refine .inl (hquiet fun x hx => ?_)
        rw [hnone] at hx
        exact absurd hx List.not_mem_nil
      · rw [afterPacket_replies, hone]
        cases hport : x.hdr.dstPort == port with
        | true =>
          right
          simp only [List.filter_cons, List.filter_nil, hport, if_true]
          rw [bytesIn_cons, if_pos hop, hpayload]
          exact congrArg _ (List.append_nil _)
        | false =>
          left
          simp only [List.filter_cons, List.filter_nil, hport, Bool.false_eq_true, if_false]
          exact List.append_nil _

theorem SystemInv.at (h : SystemInv guestCid s) (port : BitVec 32) : ∃ stage, At s port stage := by
  by_cases hsocket : s.socket = some port
  · cases h.client with
    | idle hidle hnone =>
      rw [System.socket, hidle, hnone] at hsocket
      cases hsocket
    | starting hstarting hnone =>
      rw [System.socket, hstarting, hnone] at hsocket
      cases hsocket
    | connecting hconnecting _ hconn =>
      rw [System.socket, hconnecting] at hsocket
      cases hsocket
      cases hconn with
      | waiting hat => exact ⟨_, hat⟩
      | ready hat => exact ⟨_, hat⟩
    | calling hport hconn =>
      have hsocket' := hconn.socket rfl hport
      rw [hsocket] at hsocket'
      cases hsocket'
      exact hconn.at
  · exact h.closed port hsocket

theorem Advanced.own {stage : Stage} (hadv : Advanced s s' port q stage)
    (hat : At s port stage) (h : AnswersOwn s) (hissued : s'.issued = s.issued)
    (hreturned : s'.returned = s.returned) : AnswersOwn s' := by
  have hprefix : s.issued <+: s'.issued := hissued ▸ List.prefix_refl _
  cases hadv with
  | kept _ hdispatched => exact h.issue hprefix hdispatched hreturned
  | ended _ hdispatched => exact h.issue hprefix hdispatched hreturned
  | accepted _ _ hdispatched => exact h.issue hprefix hdispatched hreturned
  | @answered r d hstage _ hdispatched hcall hop hobject =>
    subst hstage
    obtain ⟨hr, hfresh⟩ := hat.issued
    refine ⟨?_, fun x hx => ?_, fun a ha => ?_⟩
    · rw [hdispatched, List.map_append, List.map_singleton, hcall]
      refine List.nodup_append.mpr ⟨h.once, by simp, fun c hc c' hc' => ?_⟩
      obtain ⟨d', hd', rfl⟩ := List.mem_map.mp hc
      rw [List.mem_singleton.mp hc']
      exact hfresh d' hd'
    · rw [hdispatched] at hx
      rw [hissued]
      obtain hx | hx := List.mem_append.mp hx
      · exact h.own x hx
      · rw [List.mem_singleton.mp hx, hcall]
        exact ⟨r, hr, hop, hobject⟩
    · rw [hreturned] at ha
      obtain ⟨d', hd', hanswer⟩ := h.answered a ha
      exact ⟨d', hdispatched ▸ List.mem_append_left _ hd', hanswer⟩

theorem Connecting.advanced (h : Connecting s port)
    (hadv : ∀ {stage}, At s port stage → Advanced s s' port q stage)
    (hclose : q.op ≠ opShutdown ∧ q.op ≠ opRst)
    (hestablished' : (s'.conns port).established = (s.conns port).established)
    (hreceived' : (s'.conns port).received = (s.conns port).received) : Connecting s' port := by
  cases h with
  | waiting hat hstage hestablished hguest hreceived =>
    have hguest' : (∀ x ∈ (s'.conns port).toGuest,
        x ∈ (s.conns port).toGuest ∨ x.hdr.op ≠ opRw ∧ x.hdr.op ≠ opResponse) →
        ∀ x ∈ (s'.conns port).toGuest, x.hdr.op ≠ opRw ∧ x.hdr.op ≠ opResponse :=
      fun hmore x hx => (hmore x hx).elim (hguest x) id
    cases hadv hat with
    | kept hat' _ _ hmore =>
      exact .waiting hat' hstage (hestablished'.trans hestablished) (hguest' hmore)
        (hreceived'.trans hreceived)
    | ended hat' _ _ hmore =>
      exact .waiting hat' (.inr rfl) (hestablished'.trans hestablished) (hguest' hmore)
        (hreceived'.trans hreceived)
    | accepted _ hat' _ hreplies =>
      refine .ready hat' (hreplies.trans ?_)
      rw [Conn.replies, hreceived, bytesIn_eq_nil fun x hx => (hguest x hx).1]
      rfl
    | answered hasked =>
      rw [hasked] at hstage
      obtain hstage | hstage := hstage
      · cases hstage
      · cases hstage
  | ready hat hempty =>
    cases hadv hat with
    | kept hat' _ hreplies => exact .ready hat' (hreplies.trans hempty)
    | ended _ _ hop =>
      obtain ⟨-, hstage⟩ | hop | hop := hop
      · cases hstage
      · exact absurd hop hclose.1
      · exact absurd hop hclose.2
    | accepted hstage => cases hstage
    | answered hstage => cases hstage

theorem not_ended {stage : Stage} (hclose : q.op ≠ opShutdown ∧ q.op ≠ opRst)
    (hstage : stage ≠ .requested) :
    ¬ (q.op = opRequest ∧ stage = .requested ∨ q.op = opShutdown ∨ q.op = opRst) := by
  rintro (⟨-, hrequested⟩ | hop | hop)
  · exact hstage hrequested
  · exact hclose.1 hop
  · exact hclose.2 hop

theorem Calling.advanced {phase : Phase} (h : Calling s port phase)
    (hadv : ∀ {stage}, At s port stage → Advanced s s' port q stage)
    (hclose : q.op ≠ opShutdown ∧ q.op ≠ opRst) (hissued : s'.issued = s.issued) :
    Calling s' port phase := by
  have hcurrent : s'.currentCall = s.currentCall := by rw [System.currentCall, hissued]; rfl
  cases h with
  | idle hat hempty =>
    cases hadv hat with
    | kept hat' _ hreplies => exact .idle hat' (hreplies.trans hempty)
    | ended _ _ hop => exact absurd hop (not_ended hclose Stage.noConfusion)
    | accepted hstage => cases hstage
    | answered hstage => cases hstage
  | writing hat hrest hempty =>
    cases hadv hat with
    | kept hat' _ hreplies =>
      rw [← hcurrent] at hat'
      exact .writing hat' hrest (hreplies.trans hempty)
    | ended _ _ hop => exact absurd hop (not_ended hclose Stage.noConfusion)
    | accepted hstage => cases hstage
    | answered hstage =>
      injection hstage with _ _ hnil
      exact absurd hnil hrest
  | waiting hat hempty =>
    cases hadv hat with
    | kept hat' _ hreplies =>
      rw [← hcurrent] at hat'
      exact .waiting hat' (hreplies.trans hempty)
    | ended _ _ hop => exact absurd hop (not_ended hclose Stage.noConfusion)
    | accepted hstage => cases hstage
    | @answered r d hstage hat' hdispatched hcall _ _ hlen hreplies =>
      injection hstage with hmine
      rw [hempty] at hreplies
      exact .answered hat' (hdispatched ▸ List.mem_append_right _ List.mem_cons_self)
        (hcall.trans (hmine.symm.trans hcurrent.symm)) hlen hreplies
  | answered hat hd hcall hlen hanswer =>
    cases hadv hat with
    | kept hat' hdispatched hreplies =>
      rw [← hreplies] at hanswer
      exact .answered hat' (hdispatched ▸ hd) (hcall.trans hcurrent.symm) hlen hanswer
    | ended _ _ hop => exact absurd hop (not_ended hclose Stage.noConfusion)
    | accepted hstage => cases hstage
    | answered hstage => cases hstage
  | reading hat hd hcall hlen hanswer =>
    cases hadv hat with
    | kept hat' hdispatched hreplies =>
      exact .reading hat' (hdispatched ▸ hd) (hcall.trans hcurrent.symm) hlen
        (hreplies.trans hanswer)
    | ended _ _ hop => exact absurd hop (not_ended hclose Stage.noConfusion)
    | accepted hstage => cases hstage
    | answered hstage => cases hstage

theorem SystemInv.toHost (h : SystemInv guestCid s) (hqueue : (s.conns port).toHost = q :: rest)
    (hs : handlePacket hd bufferSize accept s.host (q.packet guestCid port) = some host') :
    SystemInv guestCid (s.afterPacket hd port q rest host') := by
  let s' := s.afterPacket hd port q rest host'
  have hused : (s.conns port).used = true := by
    cases hused : (s.conns port).used with
    | true => rfl
    | false =>
      rw [(h.unused port hused).1] at hqueue
      exact absurd hqueue.symm (List.cons_ne_nil _ _)
  have hsame : ∀ i, i ≠ port → s'.conns i = s.conns i := fun i hi =>
    afterPacket_elsewhere hi (deliver_elsewhere hi hs).2
  have hundisturbed : ∀ i, i ≠ port → Undisturbed s s' i := fun i hi => by
    obtain ⟨hserves, rfl⟩ | hserves := (deliver_elsewhere hi hs).1
    · exact .inl ⟨hserves, rfl, afterPacket_same rfl⟩
    · exact .inr hserves
  have hadv : ∀ {stage}, At s port stage → Advanced s s' port q stage := fun hat =>
    advanced_of_outcome hat (deliver_outcome h.cid (hqueue ▸ hat.atStage) hs)
  have hclose : s.socket = some port → q.op ≠ opShutdown ∧ q.op ≠ opRst := fun hsocket =>
    h.noClose port hsocket q (hqueue ▸ List.mem_cons_self)
  obtain ⟨stage, hat⟩ := h.at port
  refine ⟨deliver_cid h.cid hs, fun i hi => ?_, fun i hi => ?_, fun i hi => ?_, ?_,
    (hadv hat).own hat h.own rfl rfl⟩
  · have hne : i ≠ port := fun heq => by
      rw [heq] at hi
      exact Bool.noConfusion (hused.symm.trans hi)
    rw [hsame i hne] at hi ⊢
    obtain ⟨hempty, hserves, hsocket⟩ := h.unused i hi
    refine ⟨hempty, ?_, hsocket⟩
    obtain ⟨hserved, -⟩ | ⟨-, hserves'⟩ := hundisturbed i hne
    · exact absurd hserved hserves
    · exact hserves'
  · by_cases heq : i = port
    · subst heq
      cases hadv hat with
      | kept hat' => exact ⟨_, hat'⟩
      | ended hat' => exact ⟨_, hat'⟩
      | accepted _ hat' => exact ⟨_, hat'⟩
      | answered _ hat' => exact ⟨_, hat'⟩
    · obtain ⟨stage, hat⟩ := h.closed i hi
      exact ⟨stage, hat.frame (congrArg Conn.toHost (hsame i heq)) rfl (hundisturbed i heq)⟩
  · by_cases heq : i = port
    · subst heq
      rw [afterPacket_toHost]
      exact fun x hx => h.noClose i hi x (hqueue ▸ List.mem_cons_of_mem _ hx)
    · rw [hsame i heq]
      exact h.noClose i hi
  · by_cases hsocket : s.socket = some port
    · cases h.client with
      | idle hidle hnone => exact .idle hidle hnone
      | starting hstarting hnone => exact .starting hstarting hnone
      | connecting hconnecting hnone hconn =>
        have hsocket' := hsocket
        rw [System.socket, hconnecting] at hsocket'
        cases hsocket'
        exact .connecting hconnecting hnone (hconn.advanced hadv (hclose hsocket) rfl rfl)
      | calling hport hconn =>
        have hsocket' := hconn.socket rfl hport
        rw [hsocket] at hsocket'
        cases hsocket'
        exact .calling hport (hconn.advanced hadv (hclose hsocket) rfl)
    · refine h.client.frame rfl rfl rfl fun i hi => ?_
      have hne : i ≠ port := fun heq => hsocket (heq ▸ hi)
      exact ⟨hsame i hne, hundisturbed i hne⟩

end Deliver

/-! ## Every run -/

section Run

variable {hd : Handler H} {bufferSize : Nat} {guestCid : BitVec 64} {s s' : System H}

theorem SystemInv.socket_none (h : SystemInv guestCid s)
    (hs : s'.host = s.host ∧ s'.conns = s.conns ∧ s'.issued = s.issued ∧
      s'.dispatched = s.dispatched ∧ s'.returned = s.returned)
    (hnone' : s'.socket = none) (hclient : ClientAt s') : SystemInv guestCid s' := by
  obtain ⟨hhost, hconns, hissued, hdispatched, hreturned⟩ := hs
  have hprefix : s.issued <+: s'.issued := hissued ▸ List.prefix_refl _
  refine ⟨hhost ▸ h.cid, fun i hi => ?_, fun i _ => ?_, fun i hi => ?_, hclient,
    h.own.issue hprefix hdispatched hreturned⟩
  · rw [hconns] at hi ⊢
    obtain ⟨hempty, hserves, -⟩ := h.unused i hi
    exact ⟨hempty, hhost ▸ hserves, fun hi => nomatch hnone'.symm.trans hi⟩
  · obtain ⟨stage, hat⟩ := h.at i
    exact ⟨stage, hat.issue hhost (congrFun hconns i) hprefix hdispatched⟩
  · rw [hnone'] at hi
    cases hi

theorem SystemInv.calling {port : BitVec 32} (h : SystemInv guestCid s) (hfd : s.fd = some port) :
    Calling s port s.phase := by
  cases h.client with
  | idle _ hnone => exact nomatch hnone.symm.trans hfd
  | starting _ hnone => exact nomatch hnone.symm.trans hfd
  | connecting _ hnone => exact nomatch hnone.symm.trans hfd
  | calling hport hconn =>
    cases hport.symm.trans hfd
    exact hconn

theorem SystemInv.fd_none (h : SystemInv guestCid s)
    (hphase : (∃ op body, s.phase = .starting op body) ∨
      ∃ port op body, s.phase = .connecting port op body) : s.fd = none := by
  cases h.client with
  | idle _ hnone => exact hnone
  | starting _ hnone => exact hnone
  | connecting _ hnone => exact hnone
  | calling hport hconn =>
    obtain ⟨op, body, hphase⟩ | ⟨i, op, body, hphase⟩ := hphase
    all_goals
      rw [hphase] at hconn
      cases hconn

theorem SystemInv.connecting {port : BitVec 32} {op : BitVec 16} {body : Body}
    (h : SystemInv guestCid s) (hphase : s.phase = .connecting port op body) :
    Connecting s port := by
  cases h.client with
  | idle hidle => exact nomatch hidle.symm.trans hphase
  | starting hstarting => exact nomatch hstarting.symm.trans hphase
  | connecting hconnecting _ hconn =>
    cases hconnecting.symm.trans hphase
    exact hconn
  | calling _ hconn =>
    rw [hphase] at hconn
    cases hconn

theorem SystemInv.step {e : Event} (h : SystemInv guestCid s)
    (hs : step hd bufferSize guestCid s e = some s') : SystemInv guestCid s' := by
  cases e with
  | begin op body =>
    dsimp only [Shim.step] at hs
    split at hs
    case h_1 port hphase hfd =>
      cases hs
      have hconn := h.calling hfd
      have hsocket := hconn.socket rfl hfd
      rw [hphase] at hconn
      cases hconn with
      | idle hat hempty => exact h.beginWriting hsocket (h.used hsocket) hat hempty op body
    case h_2 hphase hfd =>
      cases hs
      exact h.socket_none ⟨rfl, rfl, rfl, rfl, rfl⟩ hfd (.starting rfl hfd)
    case h_3 => cases hs
  | socketFails =>
    dsimp only [Shim.step] at hs
    split at hs
    case h_1 op body hphase =>
      cases hs
      have hfd := h.fd_none (.inl ⟨op, body, hphase⟩)
      exact h.socket_none ⟨rfl, rfl, rfl, rfl, rfl⟩ hfd (.idle rfl hfd)
    case h_2 => cases hs
  | connect port =>
    dsimp only [Shim.step] at hs
    split at hs
    case h_1 op body hphase =>
      split at hs
      case isTrue => cases hs
      case isFalse hunused =>
        cases hs
        have hfd := h.fd_none (.inl ⟨op, body, hphase⟩)
        have hnone : s.socket = none := by rw [System.socket, hphase]; exact hfd
        exact h.connect hnone hfd (Bool.eq_false_iff.mpr hunused) op body
    case h_2 => cases hs
  | connectFails shutdown =>
    dsimp only [Shim.step] at hs
    split at hs
    case h_1 port op body hphase =>
      cases hs
      have hsocket : s.socket = some port := by rw [System.socket, hphase]
      obtain ⟨stage, hat⟩ := h.at port
      exact h.closeSocket hsocket (h.used hsocket) hat shutdown
    case h_2 => cases hs
  | connected =>
    dsimp only [Shim.step] at hs
    split at hs
    case h_1 port op body hphase =>
      split at hs
      case isTrue hestablished =>
        cases hs
        have hsocket : s.socket = some port := by rw [System.socket, hphase]
        cases h.connecting hphase with
        | waiting _ _ hnot => exact absurd (hnot.symm.trans hestablished) Bool.false_ne_true
        | ready hat hempty => exact h.beginWriting hsocket (h.used hsocket) hat hempty op body
      case isFalse => cases hs
    case h_2 => cases hs
  | write n =>
    dsimp only [Shim.step] at hs
    split at hs
    case h_1 rest port hphase hfd =>
      split at hs
      case isTrue => cases hs
      case isFalse hn =>
        cases hs
        simp only [Bool.or_eq_true, decide_eq_true_eq, not_or, Nat.not_lt] at hn
        exact h.write hphase hfd (h.calling hfd) hn.2
    case h_2 => cases hs
  | fails =>
    have hclose : ∀ {port}, s.fd = some port → SystemInv guestCid (s.closeSocket port true) :=
      fun hfd => by
        have hsocket := (h.calling hfd).socket rfl hfd
        obtain ⟨stage, hat⟩ := h.at _
        exact h.closeSocket hsocket (h.used hsocket) hat true
    dsimp only [Shim.step] at hs
    split at hs
    case h_4 => cases hs
    all_goals
      cases hs
      exact hclose ‹_›
  | readHeader =>
    dsimp only [Shim.step] at hs
    split at hs
    case h_1 port hphase hfd =>
      have hconn := h.calling hfd
      have hsocket := hconn.socket rfl hfd
      split at hs
      case isTrue => cases hs
      case isFalse hlen =>
        split at hs
        case isTrue =>
          cases hs
          obtain ⟨stage, hat⟩ := h.at port
          exact h.closeSocket hsocket (h.used hsocket) hat true
        case isFalse =>
          cases hs
          exact h.readHeader hphase hfd hconn (Nat.le_of_not_lt hlen)
    case h_2 => cases hs
  | readBody =>
    dsimp only [Shim.step] at hs
    split at hs
    case h_1 status port hphase hfd =>
      split at hs
      case isTrue => cases hs
      case isFalse hlen =>
        cases hs
        exact h.readBody hphase hfd (h.calling hfd) (Nat.le_of_not_lt hlen)
    case h_2 => cases hs
  | credit request =>
    dsimp only [Shim.step] at hs
    split at hs
    case h_1 port hfd =>
      cases hs
      refine h.credit hfd (h.calling hfd) ?_
      split
      · exact .inl rfl
      · exact .inr rfl
    case h_2 => cases hs
  | toHost port accept =>
    dsimp only [Shim.step] at hs
    split at hs
    case h_1 => cases hs
    case h_2 q rest hqueue =>
      obtain ⟨host', hhost, rfl⟩ := Option.map_eq_some_iff.mp hs
      exact h.toHost hqueue hhost
  | toGuest port =>
    dsimp only [Shim.step] at hs
    split at hs
    case h_1 => cases hs
    case h_2 x rest hguest =>
      cases hs
      exact h.toGuest hguest

theorem SystemInv.init (guestCid : BitVec 64) (handler : H) :
    SystemInv guestCid ({ host := { handler } } : System H) where
  cid h := Bool.noConfusion h
  unused _ _ := ⟨rfl, fun h => Bool.noConfusion h.1, fun h => nomatch h⟩
  closed _ _ :=
    ⟨.off, .off (fun h => Bool.noConfusion h.1) fun _ hq => absurd hq List.not_mem_nil, trivial⟩
  noClose _ h := nomatch h
  client := .idle rfl rfl
  own :=
    ⟨List.nodup_nil, fun _ hd => absurd hd List.not_mem_nil, fun _ ha => absurd ha List.not_mem_nil⟩

/-- In every run each call that returns has got the answer to its own request, and each
request is dispatched at most once. -/
theorem answersOwn (hd : Handler H) (bufferSize : Nat) (guestCid : BitVec 64) (handler : H)
    (h : Reaches (Shim.step hd bufferSize guestCid) anyEvent { host := { handler } } s) :
    AnswersOwn s :=
  (h.invariant (SystemInv.init guestCid handler) fun _ _ _ hinv _ hs => hinv.step hs).own

end Run

/-! ## Two calls -/

/-- A handler that answers with the first byte of the object. -/
def echoHandler : Handler Unit where
  dispatch _ _ object := some ((), 0, List.replicate objectSize (object.headD 0))
  afterReply _ _ _ := ()
  length_response h := by
    obtain ⟨-, -, rfl⟩ := h
    exact List.length_replicate

def fullOf (byte : UInt8) : Body := ⟨List.replicate objectSize byte, List.length_replicate⟩

/-- The first call fails after ten bytes.  The second one connects again, and its request
arrives in two packets. -/
def twoCalls : List Event :=
  [.begin 5 (fullOf 1), .connect 1000, .toHost 1000 true, .toGuest 1000, .connected, .write 10,
    .fails, .begin 6 (fullOf 2), .connect 1001, .toHost 1000 true, .toHost 1000 true,
    .toHost 1001 true, .toGuest 1001, .connected, .write 20, .write 2536, .toHost 1001 true,
    .toHost 1001 true, .toGuest 1001, .readHeader, .readBody]

def calledSystem : System Unit :=
  (run (step echoHandler 4096 3) { host := { handler := () } } twoCalls).get (by decide +kernel)

theorem run_calledSystem : run (step echoHandler 4096 3) { host := { handler := () } } twoCalls =
    some calledSystem := (Option.some_get _).symm

/-- The second call returns. -/
theorem answersOwn_calledSystem :
    AnswersOwn calledSystem ∧ calledSystem.returned.map Returned.call = [1] :=
  ⟨answersOwn echoHandler 4096 3 () (reaches_of_run (runMeets_anyEvent _ _ _) run_calledSystem),
    by decide +kernel⟩

end Shim
end Carrels
