import SdrServer.Server.Sockets

namespace SdrServer

def Dsp.writes : Dsp → Bool
  | .writing _ => true
  | _ => false

namespace Acceptor

def keeps : Acceptor → Bool
  | .replying _ _ _ .keep => true
  | _ => false

def speaks : Acceptor → Bool
  | .replying _ _ _ _ => true
  | .closing _ _ => true
  | _ => false

def setup : Acceptor → Option Nat
  | .startingDsp node => some node
  | .creatingThread node => some node
  | .locking node => some node
  | .waitingStopped node => some node
  | .joiningShutdown node => some node
  | .startingSdr node => some node
  | _ => none

end Acceptor

def replyBytes (bytes : List UInt8) : List OutByte := bytes.map .reply

def sampleBytes (nodes : List Nat) : List OutByte := nodes.map .sample

def successResponse (id : UInt32) : List OutByte :=
  replyBytes (writeMessage responseStatusSuccess id)

-- one response, whole or cut short
def Partial (bytes : List OutByte) : Prop :=
  ∃ status details sent, sent <+: writeMessage status details ∧ bytes = replyBytes sent

def Responded (bytes : List OutByte) : Prop :=
  ∃ status details samples, bytes = replyBytes (writeMessage status details) ++ sampleBytes samples

namespace Server

variable {s t : Server} {c : ServerConfig} {k k' : Sockets} {links : List Nat}

def OnSocket (s : Server) (node : Nat) : Prop :=
  (s.config node).destination = requestDestinationSocket

instance (s : Server) (node : Nat) : Decidable (s.OnSocket node) :=
  inferInstanceAs (Decidable (_ = _))

def Idle (s : Server) (node : Nat) : Prop :=
  (s.queue node).pending = [] ∧ (s.dsp node).writes = false

instance (s : Server) (node : Nat) : Decidable (s.Idle node) :=
  inferInstanceAs (Decidable (_ ∧ _))

-- the dsp thread of the node still has, or may still get, samples to write
def HasSamples (s : Server) (node : Nat) : Prop :=
  (s.dsp node).live = true ∧ (s.running node = true ∨ ¬ s.Idle node)

instance (s : Server) (node : Nat) : Decidable (s.HasSamples node) :=
  inferInstanceAs (Decidable (_ ∧ _))

def Greeted (s : Server) (connection : Nat) (bytes : List OutByte) : Prop :=
  ∃ node samples, node < s.nodes ∧ s.connection node = connection ∧
    bytes = successResponse (s.config node).id ++ sampleBytes samples

-- descriptor and connection of the client the acceptor has not finished with
def facing (s : Server) : Option (Nat × Nat) :=
  match s.acceptor with
  | .reading fd connection => some (fd, connection)
  | .replying fd connection left after =>
    if left = [] ∧ after = .keep then none else some (fd, connection)
  | .closing fd _ => some (fd, s.accepted - 1)
  | a => a.setup.map fun node => ((s.config node).clientSocket, s.connection node)

structure Faces (s : Server) (k : Sockets) (fd conn : Nat) : Prop where
  latest : conn + 1 = s.accepted
  owner : ∀ other, k.owner fd = some other → other = conn
  only : ∀ other, k.owner other = some conn → other = fd
  mine : ∀ node < s.nodes, s.connection node = conn →
    s.acceptor.owned = some node ∨ s.acceptor.keeps = true
  idle : ∀ node < s.nodes, s.connection node = conn → s.OnSocket node → s.Idle node

structure Replying (s : Server) (k : Sockets) (conn : Nat) (left : List UInt8) (after : After) :
    Prop where
  unanswered : k.replies conn = 0
  bytes : ∃ status details sent samples, writeMessage status details = sent ++ left ∧
    k.written conn = replyBytes sent ++ sampleBytes samples ∧
    (samples ≠ [] → left = [] ∧ after = .keep) ∧
    (after = .keep → status = responseStatusSuccess ∧
      ∃ node < s.nodes, s.connection node = conn ∧ details = (s.config node).id)

structure Spoken (s : Server) (k : Sockets) : Prop where
  fresh : ∀ conn, s.accepted ≤ conn →
    k.written conn = [] ∧ k.replies conn = 0 ∧ ∀ fd, k.owner fd ≠ some conn
  connections : ∀ node < s.nodes, s.connection node < s.accepted
  unused : ∀ node, s.nodes ≤ node → s.dsp node = .uninitialised ∧ (s.queue node).pending = []
  order : ∀ conn, Partial (k.written conn) ∨ s.Greeted conn (k.written conn)
  responded : ∀ conn, k.replies conn ≤ 1 ∧ (k.replies conn = 1 → Responded (k.written conn))
  greeted : ∀ fd conn, k.owner fd = some conn → k.broken conn = false →
    (∀ other, s.facing ≠ some (fd, other)) → s.Greeted conn (k.written conn)
  faces : ∀ fd conn, s.facing = some (fd, conn) → Faces s k fd conn
  silent : ∀ fd conn, s.facing = some (fd, conn) → s.acceptor.speaks = false →
    k.written conn = [] ∧ k.replies conn = 0
  replying : ∀ fd conn left after, s.acceptor = .replying fd conn left after →
    Replying s k conn left after
  talkers : ∀ node < s.nodes, s.OnSocket node → s.HasSamples node → ∀ conn,
    k.owner (s.config node).clientSocket = some conn → conn = s.connection node

structure SameClients (s t : Server) : Prop where
  nodes : t.nodes = s.nodes
  config : t.config = s.config
  connection : t.connection = s.connection
  accepted : t.accepted = s.accepted

structure Shrinks (k k' : Sockets) : Prop where
  owner : ∀ fd conn, k'.owner fd = some conn → k.owner fd = some conn
  broken : ∀ conn, k'.broken conn = false → k.broken conn = false
  written : k'.written = k.written
  replies : k'.replies = k.replies

theorem shrinks_refl (k : Sockets) : Shrinks k k := ⟨fun _ _ h => h, fun _ h => h, rfl, rfl⟩

theorem shrinks_close (k : Sockets) (fd connection : Nat) : Shrinks k (k.close fd connection) := by
  refine ⟨?_, fun _ h => h, rfl, rfl⟩
  intro other conn howner
  change Function.update k.owner fd none other = some conn at howner
  by_cases he : other = fd
  · rw [he, Function.update_self] at howner
    cases howner
  · rwa [Function.update_of_ne he] at howner

theorem shrinks_hangUp (k : Sockets) (connection : Nat) : Shrinks k (k.hangUp connection) := by
  refine ⟨fun _ _ h => h, ?_, rfl, rfl⟩
  intro conn hbroken
  change Function.update k.broken connection true conn = false at hbroken
  by_cases he : conn = connection
  · rw [he, Function.update_self] at hbroken
    cases hbroken
  · rwa [Function.update_of_ne he] at hbroken

theorem shrinks_shutdown (k : Sockets) (fd : Nat) : Shrinks k (k.shutdown fd) := by
  unfold Sockets.shutdown
  split
  · exact shrinks_refl k
  · exact shrinks_hangUp k _

theorem greeted_same (hsame : SameClients s t) {conn : Nat} {bytes : List OutByte}
    (h : s.Greeted conn bytes) : t.Greeted conn bytes := by
  obtain ⟨node, samples, hn, hconn, hbytes⟩ := h
  refine ⟨node, samples, hsame.nodes ▸ hn, hsame.connection ▸ hconn, ?_⟩
  rw [hsame.config]
  exact hbytes

theorem replying_same (hsame : SameClients s t) (hshrinks : Shrinks k k') {conn : Nat}
    {left : List UInt8} {after : After} (h : Replying s k conn left after) :
    Replying t k' conn left after := by
  constructor
  · rw [hshrinks.replies]
    exact h.unanswered
  · rw [hshrinks.written, hsame.nodes, hsame.connection, hsame.config]
    exact h.bytes

theorem Spoken.moves (h : Spoken s k) (hsame : SameClients s t) (hshrinks : Shrinks k k')
    (hidle : ∀ fd conn, t.facing = some (fd, conn) → ∀ node < s.nodes, s.connection node = conn →
      s.OnSocket node → s.Idle node → t.Idle node)
    (hsamples : ∀ node < s.nodes, t.HasSamples node → s.HasSamples node ∨
      s.facing = some ((s.config node).clientSocket, s.connection node))
    (hunused : ∀ node, s.nodes ≤ node → t.dsp node = s.dsp node ∧ t.queue node = s.queue node)
    (hfacing : ∀ fd conn, t.facing = some (fd, conn) → s.facing = some (fd, conn) ∧
      (t.acceptor.speaks = false → s.acceptor.speaks = false) ∧
      ∀ node, s.acceptor.owned = some node ∨ s.acceptor.keeps = true →
        t.acceptor.owned = some node ∨ t.acceptor.keeps = true)
    (hleft : ∀ fd conn, s.facing = some (fd, conn) → t.facing = some (fd, conn) ∨
      ∀ other, k'.owner fd = some other → k'.broken other = true)
    (hreplying : ∀ fd conn left after, t.acceptor = .replying fd conn left after →
      Replying t k' conn left after) : Spoken t k' := by
  refine ⟨?_, ?_, ?_, ?_, ?_, ?_, ?_, ?_, hreplying, ?_⟩
  · intro conn hn
    rw [hsame.accepted] at hn
    rw [hshrinks.written, hshrinks.replies]
    obtain ⟨hwritten, hreplies, howner⟩ := h.fresh conn hn
    exact ⟨hwritten, hreplies, fun fd hfd => howner fd (hshrinks.owner fd conn hfd)⟩
  · rw [hsame.nodes, hsame.connection, hsame.accepted]
    exact h.connections
  · intro node hn
    rw [hsame.nodes] at hn
    obtain ⟨hdsp, hqueue⟩ := hunused node hn
    rw [hdsp, hqueue]
    exact h.unused node hn
  · intro conn
    rw [hshrinks.written]
    exact (h.order conn).imp_right (greeted_same hsame)
  · rw [hshrinks.written, hshrinks.replies]
    exact h.responded
  · intro fd conn howner hbroken hother
    rw [hshrinks.written]
    refine greeted_same hsame (h.greeted fd conn (hshrinks.owner fd conn howner)
      (hshrinks.broken conn hbroken) ?_)
    intro other hfaces
    rcases hleft fd other hfaces with hkept | hgone
    · exact hother other hkept
    · rw [hgone conn howner] at hbroken
      cases hbroken
  · intro fd conn hfaces
    obtain ⟨hbefore, -, hmine⟩ := hfacing fd conn hfaces
    have hface := h.faces fd conn hbefore
    refine ⟨hsame.accepted ▸ hface.latest, ?_, ?_, ?_, ?_⟩
    · exact fun other ho => hface.owner other (hshrinks.owner fd other ho)
    · exact fun other ho => hface.only other (hshrinks.owner other conn ho)
    · intro node hn hconn
      rw [hsame.nodes] at hn
      rw [hsame.connection] at hconn
      exact hmine node (hface.mine node hn hconn)
    · intro node hn hconn hsocket
      rw [hsame.nodes] at hn
      rw [hsame.connection] at hconn
      have hsocket' : s.OnSocket node := by
        change (t.config node).destination = _ at hsocket
        rwa [hsame.config] at hsocket
      exact hidle fd conn hfaces node hn hconn hsocket' (hface.idle node hn hconn hsocket')
  · intro fd conn hfaces hsilent
    obtain ⟨hbefore, hspeaks, -⟩ := hfacing fd conn hfaces
    rw [hshrinks.written, hshrinks.replies]
    exact h.silent fd conn hbefore (hspeaks hsilent)
  · intro node hn hsocket htalks conn howner
    rw [hsame.nodes] at hn
    rw [hsame.config] at howner
    rw [hsame.connection]
    have howner' := hshrinks.owner _ conn howner
    have hsocket' : s.OnSocket node := by
      change (t.config node).destination = _ at hsocket
      rwa [hsame.config] at hsocket
    rcases hsamples node hn htalks with hbefore | hbefore
    · exact h.talkers node hn hsocket' hbefore conn howner'
    · exact (h.faces _ _ hbefore).owner conn howner'

structure Appends (k k' : Sockets) (conn : Nat) (bytes : List OutByte) : Prop where
  owner : k'.owner = k.owner
  broken : k'.broken = k.broken
  replies : k'.replies = k.replies
  said : k'.written conn = k.written conn ++ bytes
  others : ∀ other, other ≠ conn → k'.written other = k.written other

theorem write_some {fd : Nat} {bytes : List OutByte} (hk : k.write fd bytes = some k') :
    ∃ conn, k.owner fd = some conn ∧ k.broken conn = false ∧ Appends k k' conn bytes := by
  unfold Sockets.write at hk
  split at hk
  · cases hk
  · rename_i conn howner
    split at hk
    · cases hk
    · rename_i hbroken
      obtain rfl := Option.some.inj hk
      refine ⟨conn, howner, by simpa using hbroken, rfl, rfl, rfl, Function.update_self .., ?_⟩
      exact fun other hne => Function.update_of_ne hne _ _

theorem writeFails_some {fd : Nat} (hk : k.writeFails fd = some k') :
    k' = k ∧ ∀ conn, k.owner fd = some conn → k.broken conn = true := by
  unfold Sockets.writeFails at hk
  split at hk
  · rename_i howner
    refine ⟨(Option.some.inj hk).symm, ?_⟩
    intro conn hconn
    rw [howner] at hconn
    cases hconn
  · rename_i conn howner
    split at hk
    · rename_i hbroken
      refine ⟨(Option.some.inj hk).symm, ?_⟩
      intro other hother
      obtain rfl := Option.some.inj (howner.symm.trans hother)
      exact hbroken
    · cases hk

theorem greeted_samples {conn : Nat} {bytes : List OutByte} (h : s.Greeted conn bytes)
    (samples : List Nat) : s.Greeted conn (bytes ++ sampleBytes samples) := by
  obtain ⟨node, before, hn, hconn, rfl⟩ := h
  exact ⟨node, before ++ samples, hn, hconn, by simp [sampleBytes]⟩

theorem responded_samples {bytes : List OutByte} (h : Responded bytes) (samples : List Nat) :
    Responded (bytes ++ sampleBytes samples) := by
  obtain ⟨status, details, before, rfl⟩ := h
  exact ⟨status, details, before ++ samples, by simp [sampleBytes]⟩

theorem facing_replying {fd conn : Nat} {left : List UInt8} {after : After}
    (heq : s.acceptor = .replying fd conn left after) (hopen : ¬ (left = [] ∧ after = .keep)) :
    s.facing = some (fd, conn) := by
  rw [facing, heq]
  exact if_neg hopen

theorem Spoken.hears (h : Spoken s k) {fd conn : Nat} {samples : List Nat}
    (howner : k.owner fd = some conn) (hbroken : k.broken conn = false)
    (hother : ∀ other, s.facing ≠ some (fd, other)) (hk : Appends k k' conn (sampleBytes samples)) :
    Spoken s k' := by
  have hgreeted := h.greeted fd conn howner hbroken hother
  have hsaid : s.Greeted conn (k'.written conn) := by
    rw [hk.said]
    exact greeted_samples hgreeted samples
  have hfaced : ∀ {fd' conn'}, s.facing = some (fd', conn') → conn' ≠ conn := by
    rintro fd' conn' hfaces rfl
    have hfd := (h.faces fd' conn' hfaces).only fd howner
    exact hother conn' (hfd ▸ hfaces)
  refine ⟨?_, h.connections, h.unused, ?_, ?_, ?_, ?_, ?_, ?_, ?_⟩
  · intro other ho
    obtain ⟨hwritten, hreplies, hnone⟩ := h.fresh other ho
    have hne : other ≠ conn := by
      rintro rfl
      exact hnone fd howner
    rw [hk.others other hne, hk.replies, hk.owner]
    exact ⟨hwritten, hreplies, hnone⟩
  · intro other
    by_cases he : other = conn
    · rw [he]
      exact Or.inr hsaid
    · rw [hk.others other he]
      exact h.order other
  · intro other
    rw [hk.replies]
    refine ⟨(h.responded other).1, fun hone => ?_⟩
    have hresponded := (h.responded other).2 hone
    by_cases he : other = conn
    · subst he
      rw [hk.said]
      exact responded_samples hresponded samples
    · rwa [hk.others other he]
  · intro other conn' hown hopen hfree
    rw [hk.owner] at hown
    rw [hk.broken] at hopen
    by_cases he : conn' = conn
    · rw [he]
      exact hsaid
    · rw [hk.others conn' he]
      exact h.greeted other conn' hown hopen hfree
  · intro fd' conn' hfaces
    obtain ⟨hlatest, howner', honly, hmine, hidle⟩ := h.faces fd' conn' hfaces
    exact ⟨hlatest, hk.owner ▸ howner', hk.owner ▸ honly, hmine, hidle⟩
  · intro fd' conn' hfaces hsilent
    rw [hk.others conn' (hfaced hfaces), hk.replies]
    exact h.silent fd' conn' hfaces hsilent
  · intro fd' conn' left after heq
    obtain ⟨hnone, status, details, sent, before, hmessage, hbytes, hlate, hkeep⟩ :=
      h.replying fd' conn' left after heq
    by_cases he : conn' = conn
    · subst he
      have hdone : left = [] ∧ after = .keep := by
        by_contra hopen
        exact hfaced (facing_replying heq hopen) rfl
      refine ⟨by rw [hk.replies]; exact hnone, status, details, sent, before ++ samples, hmessage,
        ?_, fun _ => hdone, hkeep⟩
      rw [hk.said, hbytes]
      simp [sampleBytes]
    · refine ⟨by rw [hk.replies]; exact hnone, status, details, sent, before, hmessage, ?_, hlate,
        hkeep⟩
      rw [hk.others conn' he]
      exact hbytes
  · rw [hk.owner]
    exact h.talkers

theorem facing_same (hsame : SameClients s t) (hacceptor : t.acceptor = s.acceptor) :
    t.facing = s.facing := by
  unfold facing
  rw [hacceptor, hsame.config, hsame.connection, hsame.accepted]

theorem Spoken.stays (h : Spoken s k) (hsame : SameClients s t) (hacceptor : t.acceptor = s.acceptor)
    (hshrinks : Shrinks k k')
    (hidle : ∀ fd conn, s.facing = some (fd, conn) → ∀ node < s.nodes, s.connection node = conn →
      s.OnSocket node → s.Idle node → t.Idle node)
    (hsamples : ∀ node < s.nodes, t.HasSamples node → s.HasSamples node)
    (hunused : ∀ node, s.nodes ≤ node → t.dsp node = s.dsp node ∧ t.queue node = s.queue node) :
    Spoken t k' := by
  have hfacing := facing_same hsame hacceptor
  refine h.moves hsame hshrinks ?_ ?_ hunused ?_ ?_ ?_
  · rw [hfacing]
    exact hidle
  · exact fun node hn htalks => Or.inl (hsamples node hn htalks)
  · intro fd conn hfaces
    rw [hacceptor]
    exact ⟨hfacing ▸ hfaces, fun hs => hs, fun node hmine => hmine⟩
  · intro fd conn hfaces
    exact Or.inl (hfacing.trans hfaces)
  · intro fd conn left after heq
    rw [hacceptor] at heq
    exact replying_same hsame hshrinks (h.replying fd conn left after heq)

structure Quiets (s t : Server) : Prop where
  idle : ∀ node, s.Idle node → t.Idle node
  live : ∀ node, (t.dsp node).live = true → (s.dsp node).live = true
  running : ∀ node, t.running node = true → s.running node = true

theorem quiets_refl (s : Server) : Quiets s s :=
  ⟨fun _ h => h, fun _ h => h, fun _ h => h⟩

theorem Quiets.samples (h : Quiets s t) {node : Nat} (ht : t.HasSamples node) : s.HasSamples node := by
  obtain ⟨hlive, hmore⟩ := ht
  refine ⟨h.live node hlive, ?_⟩
  rcases hmore with hrunning | hbusy
  · exact Or.inl (h.running node hrunning)
  · exact Or.inr fun hidle => hbusy (h.idle node hidle)

theorem idle_same {node : Nat} (hdsp : t.dsp node = s.dsp node) (hqueue : t.queue node = s.queue node) :
    t.Idle node ↔ s.Idle node := by
  unfold Idle
  rw [hdsp, hqueue]

theorem quiets_dsp (node : Nat) (new : Dsp) (queue : Fifo Nat)
    (hidle : s.Idle node → queue.pending = [] ∧ new.writes = false)
    (hlive : new.live = true → (s.dsp node).live = true) :
    Quiets s { s.setDsp node new with queue := Function.update s.queue node queue } := by
  refine ⟨?_, ?_, fun _ h => h⟩
  · intro other ho
    change (Function.update s.queue node queue other).pending = [] ∧
      (Function.update s.dsp node new other).writes = false
    by_cases he : other = node
    · subst he
      rw [Function.update_self, Function.update_self]
      exact hidle ho
    · rw [Function.update_of_ne he, Function.update_of_ne he]
      exact ho
  · intro other ho
    change (Function.update s.dsp node new other).live = true at ho
    by_cases he : other = node
    · subst he
      rw [Function.update_self] at ho
      exact hlive ho
    · rwa [Function.update_of_ne he] at ho

theorem quiets_setDsp {node : Nat} {new : Dsp} (hwrites : new.writes = false)
    (hlive : new.live = true → (s.dsp node).live = true) : Quiets s (s.setDsp node new) := by
  have hquiets := quiets_dsp (s := s) node new (s.queue node)
    (fun hidle => ⟨hidle.1, hwrites⟩) hlive
  rw [Function.update_eq_self] at hquiets
  exact hquiets

theorem dsp_quiets {node : Nat} {e : DspThreadEvent} (ht : s.dspStep node e = some t) :
    Quiets s t ∧ s.dsp node ≠ .uninitialised ∧
      ∀ other, other ≠ node → t.dsp other = s.dsp other ∧ t.queue other = s.queue other := by
  have hdsp : ∀ (new : Dsp) other, other ≠ node →
      Function.update s.dsp node new other = s.dsp other :=
    fun new other hne => Function.update_of_ne hne new s.dsp
  have hset : ∀ (new : Dsp) (queue : Fifo Nat) other, other ≠ node →
      Function.update s.dsp node new other = s.dsp other ∧
        Function.update s.queue node queue other = s.queue other :=
    fun new queue other hne => ⟨hdsp new other hne, Function.update_of_ne hne queue s.queue⟩
  cases dspStep_move ht with
  | take heq hqueue =>
    refine ⟨quiets_dsp _ _ _ ?_ (fun _ => by rw [heq]; rfl), by simp [heq], hset _ _⟩
    intro hidle
    rw [Fifo.take, hidle.1] at hqueue
    cases hqueue
  | @write n left heq hn =>
    have hquiets := quiets_dsp (s := s) node (.writing (left - n)) (s.queue node)
      (fun hidle => by simp [Idle, heq, Dsp.writes] at hidle) (fun _ => by rw [heq]; rfl)
    rw [Function.update_eq_self] at hquiets
    exact ⟨hquiets, by simp [heq], fun other hne => ⟨hdsp _ other hne, rfl⟩⟩
  | writeFails heq | complete heq =>
    refine ⟨quiets_dsp _ _ _ ?_ (fun _ => by rw [heq]; rfl), by simp [heq], hset _ _⟩
    intro hidle
    simp [Idle, heq, Dsp.writes] at hidle
  | close heq =>
    exact ⟨quiets_setDsp rfl (fun _ => by rw [heq]; rfl), by simp [heq],
      fun other hne => ⟨hdsp _ other hne, rfl⟩⟩
  | finish heq =>
    exact ⟨quiets_setDsp rfl (by simp [Dsp.live]), by simp [heq],
      fun other hne => ⟨hdsp _ other hne, rfl⟩⟩

theorem worker_quiets {node : Nat} {e : WorkerEvent} (ht : WorkerMove s node e t) : Quiets s t := by
  have hrefl := quiets_refl s
  cases ht with
  | lock =>
    refine { hrefl with running := ?_ }
    intro other ho
    change Function.update s.running node false other = true at ho
    by_cases he : other = node
    · rw [he, Function.update_self] at ho
      cases ho
    · rwa [Function.update_of_ne he] at ho
  | joinDsp =>
    have hquiets : Quiets s (s.setDsp node .destroyed) :=
      quiets_setDsp rfl (by simp [Dsp.live])
    exact { hquiets with }
  | _ => exact { hrefl with }

theorem worker_shrinks {node : Nat} {e : WorkerEvent} (hk : k.workerStep s node e = some k') :
    Shrinks k k' := by
  cases e with
  | close =>
    obtain rfl := Option.some.inj hk
    exact shrinks_close k _ _
  | destroyNode =>
    obtain rfl := Option.some.inj hk
    exact shrinks_close k _ _
  | _ =>
    obtain rfl := Option.some.inj hk
    exact shrinks_refl k

theorem Spoken.worker (h : Spoken s k) (ho : Owned s links) {node : Nat} {e : WorkerEvent}
    (ht : WorkerMove s node e t) (hk : k.workerStep s node e = some k') : Spoken t k' := by
  have hquiets := worker_quiets ht
  have hsame : SameClients s t := by cases ht <;> exact ⟨rfl, rfl, rfl, rfl⟩
  have hacceptor : t.acceptor = s.acceptor := by cases ht <;> rfl
  refine h.stays hsame hacceptor (worker_shrinks hk) ?_ (fun _ _ => hquiets.samples) ?_
  · exact fun _ _ _ other _ _ _ hidle => hquiets.idle other hidle
  · intro other hn
    cases ht with
    | joinDsp heq =>
      have hne : other ≠ node := by
        rintro rfl
        exact absurd (ho.allocated (by simp [heq])) (Nat.not_lt.mpr hn)
      exact ⟨Function.update_of_ne hne _ _, rfl⟩
    | _ => exact ⟨rfl, rfl⟩

theorem Spoken.dsp (h : Spoken s k) {node : Nat} {e : DspThreadEvent} (ht : s.dspStep node e = some t)
    (hk : k.dspStep s node e = some k') : Spoken t k' := by
  obtain ⟨hquiets, hinitialised, hframe⟩ := dsp_quiets ht
  have hn : node < s.nodes := by
    by_contra hn
    exact hinitialised (h.unused node (Nat.le_of_not_lt hn)).1
  have hthread : ∀ {k₀ k₁ : Sockets}, Spoken s k₀ → Shrinks k₀ k₁ → Spoken t k₁ := by
    intro k₀ k₁ hspoken hshrinks
    obtain ⟨dsp, queue, rfl⟩ := dsp_frame ht
    refine hspoken.stays ⟨rfl, rfl, rfl, rfl⟩ rfl hshrinks ?_ (fun _ _ => hquiets.samples) ?_
    · exact fun _ _ _ other _ _ _ hidle => hquiets.idle other hidle
    · intro other hother
      exact hframe other (fun he => absurd hn (Nat.not_lt.mpr (he ▸ hother)))
  cases e with
  | write n =>
    simp only [Sockets.dspStep] at hk
    split at hk
    · rename_i hsocket
      obtain ⟨conn, howner, hbroken, happends⟩ := write_some hk
      have hbusy : ¬ s.Idle node := by
        cases dspStep_move ht with
        | write heq => simp [Idle, heq, Dsp.writes]
      have hlive : (s.dsp node).live = true := by
        cases dspStep_move ht with
        | write heq => rw [heq]; rfl
      have hconn := h.talkers node hn hsocket ⟨hlive, Or.inr hbusy⟩ conn howner
      have hother : ∀ other, s.facing ≠ some ((s.config node).clientSocket, other) := by
        intro other hfaces
        have hface := h.faces _ _ hfaces
        have hsame := hface.owner conn howner
        exact hbusy (hface.idle node hn (hconn.symm.trans hsame) hsocket)
      have hbytes : List.replicate n (OutByte.sample node) = sampleBytes (List.replicate n node) := by
        simp [sampleBytes]
      rw [hbytes] at happends
      exact hthread (h.hears howner hbroken hother happends) (shrinks_refl k')
    · obtain rfl := Option.some.inj hk
      exact hthread h (shrinks_refl k)
  | writeFails =>
    simp only [Sockets.dspStep] at hk
    split at hk
    · obtain ⟨rfl, -⟩ := writeFails_some hk
      exact hthread h (shrinks_refl k')
    · obtain rfl := Option.some.inj hk
      exact hthread h (shrinks_refl k)
  | close =>
    obtain rfl := Option.some.inj hk
    exact hthread h (shrinks_close k _ _)
  | _ =>
    obtain rfl := Option.some.inj hk
    exact hthread h (shrinks_refl k)

-- no buffer arrives for a client that waits for its response
def CallsBackAfter (s : Server) : Prop :=
  match s.acceptor with
  | .replying _ conn left .keep => left ≠ [] → ∀ node < s.nodes, s.connection node = conn →
      s.OnSocket node → s.running node = false
  | _ => True

instance (s : Server) : Decidable s.CallsBackAfter := by
  unfold CallsBackAfter
  split <;> infer_instance

theorem callback_stopped (h : Spoken s k) (ho : Owned s links) (hok : s.CallsBackAfter) {fd conn : Nat}
    (hfaces : s.facing = some (fd, conn)) {node : Nat} (hn : node < s.nodes)
    (hconn : s.connection node = conn) (hsocket : s.OnSocket node) (hlinked : node ∈ links) :
    s.running node = false := by
  rcases (h.faces fd conn hfaces).mine node hn hconn with howned | hkeeps
  · exact absurd howned (ho.linked node hlinked).2.2
  · unfold CallsBackAfter at hok
    split at hok
    · rename_i fd' conn' left heq
      rw [facing, heq] at hfaces
      simp only [and_true] at hfaces
      split at hfaces
      · cases hfaces
      · rename_i hopen
        obtain ⟨rfl, rfl⟩ := Prod.mk.inj (Option.some.inj hfaces)
        exact hok hopen node hn hconn hsocket
    · rename_i hnot
      cases heq : s.acceptor with
      | replying fd' conn' left after =>
        rw [heq] at hkeeps
        cases after with
        | keep => exact absurd heq (hnot fd' conn' left)
        | _ => cases hkeeps
      | _ => simp [heq, Acceptor.keeps] at hkeeps

theorem Spoken.callback (h : Spoken s k) (ho : Owned s links) (hok : s.CallsBackAfter)
    (ht : s.step c .sdrCallback = some t) : Spoken t k := by
  have hdelivered := callback_delivered ho ht
  have hframe : t.dsp = s.dsp ∧ t.running = s.running ∧ t.acceptor = s.acceptor ∧ SameClients s t := by
    obtain ⟨queue, rfl⟩ := callback_frame ht
    exact ⟨rfl, rfl, rfl, rfl, rfl, rfl, rfl⟩
  obtain ⟨hdsp, hrunning, hacceptor, hsame⟩ := hframe
  have hidle : ∀ node, (node ∈ links → s.running node = false) → (t.Idle node ↔ s.Idle node) :=
    fun node hstopped => idle_same (congrFun hdsp node) (hdelivered.frame node hstopped)
  refine h.stays hsame hacceptor (shrinks_refl k) ?_ ?_ ?_
  · intro fd conn hfaces node hn hconn hsocket
    exact (hidle node (callback_stopped h ho hok hfaces hn hconn hsocket)).mpr
  · intro node hn htalks
    obtain ⟨hlive, hmore⟩ := htalks
    rw [hdsp] at hlive
    rw [hrunning] at hmore
    refine ⟨hlive, ?_⟩
    by_cases hserved : node ∈ links ∧ s.running node = true
    · exact Or.inl hserved.2
    · have hstopped : node ∈ links → s.running node = false :=
        fun hm => Bool.eq_false_iff.mpr fun hrun => hserved ⟨hm, hrun⟩
      exact hmore.imp_right (mt (hidle node hstopped).mpr)
  · intro node hn
    have hqueue := hdelivered.frame node fun hm =>
      absurd (ho.linked node hm).1.1 (Nat.not_lt.mpr hn)
    exact ⟨congrFun hdsp node, hqueue⟩

end Server
end SdrServer
