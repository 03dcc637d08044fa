import SdrServer.Server.Speech

namespace SdrServer
namespace Server

variable {s t : Server} {c : ServerConfig} {k k' : Sockets} {links : List Nat}

structure SameThreads (s t : Server) : Prop where
  dsp : t.dsp = s.dsp
  queue : t.queue = s.queue
  running : t.running = s.running

theorem sameThreads_quiets (h : SameThreads s t) : Quiets s t := by
  obtain ⟨hdsp, hqueue, hrunning⟩ := h
  refine ⟨?_, ?_, ?_⟩
  · intro node hidle
    exact (idle_same (congrFun hdsp node) (congrFun hqueue node)).mpr hidle
  · rw [hdsp]
    exact fun _ hlive => hlive
  · rw [hrunning]
    exact fun _ hrun => hrun

theorem Spoken.onward (h : Spoken s k) {fd conn : Nat} (hbefore : s.facing = some (fd, conn))
    (hsame : SameClients s t) (hthreads : SameThreads s t) (hafter : t.facing = some (fd, conn))
    (hsilent : t.acceptor.speaks = false → s.acceptor.speaks = false)
    (hmine : ∀ node, s.acceptor.owned = some node ∨ s.acceptor.keeps = true →
      t.acceptor.owned = some node ∨ t.acceptor.keeps = true)
    (hreplying : ∀ fd conn left after, t.acceptor = .replying fd conn left after →
      Replying t k conn left after) : Spoken t k := by
  have hquiets := sameThreads_quiets hthreads
  refine h.moves hsame (shrinks_refl k) ?_ ?_ ?_ ?_ ?_ hreplying
  · exact fun _ _ _ node _ _ _ hidle => hquiets.idle node hidle
  · exact fun _ _ htalks => Or.inl (hquiets.samples htalks)
  · exact fun node _ => ⟨congrFun hthreads.dsp node, congrFun hthreads.queue node⟩
  · intro fd' conn' hfaces
    obtain ⟨rfl, rfl⟩ := Prod.mk.inj (Option.some.inj (hafter.symm.trans hfaces))
    exact ⟨hbefore, hsilent, hmine⟩
  · intro fd' conn' hfaces
    obtain ⟨rfl, rfl⟩ := Prod.mk.inj (Option.some.inj (hbefore.symm.trans hfaces))
    exact Or.inl hafter

theorem Spoken.parts (h : Spoken s k) (hsame : SameClients s t) (hquiets : Quiets s t)
    (hunused : ∀ node, s.nodes ≤ node → t.dsp node = s.dsp node ∧ t.queue node = s.queue node)
    (hshrinks : Shrinks k k') (hafter : t.facing = none)
    (hdone : ∀ fd conn, s.facing = some (fd, conn) → ∀ other, k'.owner fd = some other →
      k'.broken other = true)
    (hnot : t.acceptor.speaks = false) : Spoken t k' := by
  refine h.moves hsame hshrinks ?_ ?_ hunused ?_ ?_ ?_
  · intro fd conn hfaces
    rw [hafter] at hfaces
    cases hfaces
  · exact fun _ _ htalks => Or.inl (hquiets.samples htalks)
  · intro fd conn hfaces
    rw [hafter] at hfaces
    cases hfaces
  · exact fun fd conn hfaces => Or.inr (hdone fd conn hfaces)
  · intro fd conn left after heq
    rw [heq] at hnot
    cases hnot

theorem replying_begins (h : Spoken s k) {fd conn : Nat} (hbefore : s.facing = some (fd, conn))
    (hsilent : s.acceptor.speaks = false) (status : UInt8) (details : UInt32) {after : After}
    (hkeep : after = .keep → status = responseStatusSuccess ∧
      ∃ node < s.nodes, s.connection node = conn ∧ details = (s.config node).id) :
    Replying s k conn (writeMessage status details) after := by
  obtain ⟨hwritten, hreplies⟩ := h.silent fd conn hbefore hsilent
  refine ⟨hreplies, status, details, [], [], rfl, hwritten, fun hne => absurd rfl hne, hkeep⟩

theorem Spoken.accepts (h : Spoken s k) (heq : s.acceptor = .accepting) {fd : Nat}
    (hok : ∀ node < s.nodes, s.OnSocket node → s.HasSamples node → (s.config node).clientSocket ≠ fd)
    (hk : k.accept fd s.accepted = some k') :
    Spoken { s with acceptor := .reading fd s.accepted, accepted := s.accepted + 1 } k' := by
  unfold Sockets.accept at hk
  split at hk
  · rename_i hfree
    obtain rfl := Option.some.inj hk
    have hnone : s.facing = none := by
      rw [facing, heq]
      rfl
    have howner : ∀ other conn, other ≠ fd →
        (Function.update k.owner fd (some s.accepted) other = some conn ↔ k.owner other = some conn) := by
      intro other conn hne
      rw [Function.update_of_ne hne]
    obtain ⟨hwritten, hreplies, hunowned⟩ := h.fresh s.accepted (Nat.le_refl _)
    refine ⟨?_, ?_, h.unused, h.order, h.responded, ?_, ?_, ?_, ?_, ?_⟩
    · intro conn hn
      obtain ⟨hsaid, hcount, howned⟩ := h.fresh conn (Nat.le_of_succ_le hn)
      refine ⟨hsaid, hcount, ?_⟩
      intro other hother
      change Function.update k.owner fd (some s.accepted) other = some conn at hother
      by_cases he : other = fd
      · subst he
        rw [Function.update_self] at hother
        exact absurd hn (by rw [Option.some.inj hother]; exact Nat.not_succ_le_self conn)
      · exact howned other ((howner other conn he).mp hother)
    · exact fun node hn => Nat.lt_succ_of_lt (h.connections node hn)
    · intro other conn hother hbroken hfaces
      have hne : other ≠ fd := by
        rintro rfl
        exact hfaces s.accepted rfl
      exact h.greeted other conn ((howner other conn hne).mp hother) hbroken (by simp [hnone])
    · intro fd' conn' hfaces
      obtain ⟨rfl, rfl⟩ := Prod.mk.inj (Option.some.inj hfaces)
      refine ⟨rfl, ?_, ?_, ?_, ?_⟩
      · intro other hother
        change Function.update k.owner fd (some s.accepted) fd = some other at hother
        rw [Function.update_self] at hother
        exact (Option.some.inj hother).symm
      · intro other hother
        by_contra hne
        exact hunowned other ((howner other s.accepted hne).mp hother)
      · intro node hn hconn
        exact absurd (h.connections node hn) (by rw [hconn]; exact Nat.lt_irrefl _)
      · intro node hn hconn
        exact absurd (h.connections node hn) (by rw [hconn]; exact Nat.lt_irrefl _)
    · intro fd' conn' hfaces _
      obtain ⟨rfl, rfl⟩ := Prod.mk.inj (Option.some.inj hfaces)
      exact ⟨hwritten, hreplies⟩
    · intro fd' conn' left after hacceptor
      cases hacceptor
    · intro node hn hsocket htalks conn hconn
      have hne := hok node hn hsocket htalks
      exact h.talkers node hn hsocket htalks conn ((howner _ conn hne).mp hconn)
  · cases hk

theorem greeted_newNode {conn other : Nat} {config : ClientConfig} {bytes : List OutByte}
    (h : s.Greeted other bytes) : (s.newNode conn config).Greeted other bytes := by
  obtain ⟨node, samples, hn, hconn, hbytes⟩ := h
  have hne : node ≠ s.nodes := Nat.ne_of_lt hn
  refine ⟨node, samples, Nat.lt_succ_of_lt hn, ?_, ?_⟩
  · exact (Function.update_of_ne hne _ _).trans hconn
  · change bytes = successResponse (Function.update s.config s.nodes _ node).id ++ _
    rw [Function.update_of_ne hne]
    exact hbytes

theorem Spoken.serves (h : Spoken s k) {fd conn : Nat} (heq : s.acceptor = .reading fd conn)
    {config : ClientConfig} (hfd : config.clientSocket = fd) : Spoken (s.newNode conn config) k := by
  have hbefore : s.facing = some (fd, conn) := by
    rw [facing, heq]
  have hface := h.faces fd conn hbefore
  have hconfig : (s.newNode conn config).config s.nodes = { config with id := s.clientCounter } :=
    Function.update_self ..
  have hconnection : (s.newNode conn config).connection s.nodes = conn := Function.update_self ..
  have hafter : (s.newNode conn config).facing = some (fd, conn) := by
    change some (((s.newNode conn config).config s.nodes).clientSocket,
      (s.newNode conn config).connection s.nodes) = some (fd, conn)
    rw [hconfig, hconnection, ← hfd]
  have hsplit : ∀ node < s.nodes + 1, node = s.nodes ∨ node < s.nodes ∧
      (s.newNode conn config).config node = s.config node ∧
      (s.newNode conn config).connection node = s.connection node ∧
      (s.newNode conn config).running node = s.running node := by
    intro node hn
    rcases Nat.lt_succ_iff_lt_or_eq.mp hn with hlt | rfl
    · have hne := Nat.ne_of_lt hlt
      exact Or.inr ⟨hlt, Function.update_of_ne hne _ _, Function.update_of_ne hne _ _,
        Function.update_of_ne hne _ _⟩
    · exact Or.inl rfl
  obtain ⟨hdsp, hqueue⟩ := h.unused s.nodes (Nat.le_refl _)
  refine ⟨h.fresh, ?_, ?_, ?_, h.responded, ?_, ?_, ?_, ?_, ?_⟩
  · intro node hn
    rcases hsplit node hn with rfl | ⟨hlt, -, hconn, -⟩
    · rw [hconnection]
      exact Nat.lt_of_succ_le (Nat.le_of_eq hface.latest)
    · rw [hconn]
      exact h.connections node hlt
  · exact fun node hn => h.unused node (Nat.le_of_succ_le hn)
  · exact fun other => (h.order other).imp_right greeted_newNode
  · intro other conn' hother hbroken hfaces
    refine greeted_newNode (h.greeted other conn' hother hbroken ?_)
    rw [hbefore, ← hafter]
    exact hfaces
  · intro fd' conn' hfaces
    obtain ⟨rfl, rfl⟩ := Prod.mk.inj (Option.some.inj (hafter.symm.trans hfaces))
    refine ⟨hface.latest, hface.owner, hface.only, ?_, ?_⟩
    · intro node hn hconn
      rcases hsplit node hn with rfl | ⟨hlt, -, hsame, -⟩
      · exact Or.inl rfl
      · rw [hsame] at hconn
        have hmine := hface.mine node hlt hconn
        rw [heq] at hmine
        simp [Acceptor.owned, Acceptor.keeps] at hmine
    · intro node hn hconn hsocket
      rcases hsplit node hn with rfl | ⟨hlt, hsame, hconn', -⟩
      · refine ⟨hqueue, ?_⟩
        change (s.dsp s.nodes).writes = false
        rw [hdsp]
        rfl
      · rw [hconn'] at hconn
        unfold OnSocket at hsocket
        rw [hsame] at hsocket
        exact hface.idle node hlt hconn hsocket
  · intro fd' conn' hfaces _
    obtain ⟨rfl, rfl⟩ := Prod.mk.inj (Option.some.inj (hafter.symm.trans hfaces))
    exact h.silent fd conn hbefore (by rw [heq]; rfl)
  · intro fd' conn' left after hacceptor
    cases hacceptor
  · intro node hn hsocket htalks conn' hconn
    rcases hsplit node hn with rfl | ⟨hlt, hsame, hconn', hrunning⟩
    · have hlive : (s.dsp s.nodes).live = true := htalks.1
      rw [hdsp] at hlive
      cases hlive
    · unfold OnSocket at hsocket
      rw [hsame] at hsocket hconn
      rw [hconn']
      refine h.talkers node hlt hsocket ⟨htalks.1, ?_⟩ conn' hconn
      rw [← hrunning]
      exact htalks.2

theorem Spoken.replies (h : Spoken s k) {fd conn n : Nat} {left : List UInt8} {after : After}
    (heq : s.acceptor = .replying fd conn left after) (hn : 0 < n ∧ n ≤ left.length)
    (hk : k.write fd (replyBytes (left.take n)) = some k') :
    Spoken { s with acceptor := .replying fd conn (left.drop n) after } k' := by
  obtain ⟨conn', howner, hbroken, happends⟩ := write_some hk
  have hleft : left ≠ [] := by
    rintro rfl
    simp only [List.length_nil] at hn
    omega
  have hbefore := facing_replying heq fun hdone => hleft hdone.1
  have hface := h.faces fd conn hbefore
  obtain rfl := hface.owner conn' howner
  obtain ⟨hunanswered, status, details, sent, samples, hmessage, hbytes, hlate, hkeep⟩ :=
    h.replying fd conn' left after heq
  obtain rfl : samples = [] := by
    by_contra hne
    exact hleft (hlate hne).1
  have hsaid : k'.written conn' = replyBytes (sent ++ left.take n) ++ sampleBytes [] := by
    rw [happends.said, hbytes]
    simp [replyBytes, sampleBytes]
  have hsplit : writeMessage status details = (sent ++ left.take n) ++ left.drop n := by
    rw [hmessage, List.append_assoc, List.take_append_drop]
  have hafter : ∀ fd' conn, ({ s with acceptor := .replying fd conn' (left.drop n) after } : Server).facing =
      some (fd', conn) → fd' = fd ∧ conn = conn' := by
    intro fd' conn hfaces
    simp only [facing] at hfaces
    split at hfaces
    · cases hfaces
    · obtain ⟨rfl, rfl⟩ := Prod.mk.inj (Option.some.inj hfaces)
      exact ⟨rfl, rfl⟩
  refine ⟨?_, h.connections, h.unused, ?_, ?_, ?_, ?_, ?_, ?_, ?_⟩
  · intro conn hc
    obtain ⟨hwritten, hreplies, hnone⟩ := h.fresh conn hc
    have hne : conn ≠ conn' := by
      rintro rfl
      exact hnone fd howner
    rw [happends.others conn hne, happends.replies, happends.owner]
    exact ⟨hwritten, hreplies, hnone⟩
  · intro conn
    by_cases he : conn = conn'
    · subst he
      refine Or.inl ⟨status, details, sent ++ left.take n, ?_, ?_⟩
      · rw [hsplit]
        exact List.prefix_append _ _
      · rw [hsaid]
        simp [sampleBytes]
    · rw [happends.others conn he]
      exact h.order conn
  · intro conn
    rw [happends.replies]
    refine ⟨(h.responded conn).1, fun hone => ?_⟩
    have hne : conn ≠ conn' := by
      rintro rfl
      rw [hunanswered] at hone
      cases hone
    rw [happends.others conn hne]
    exact (h.responded conn).2 hone
  · intro fd' conn hown hopen hfree
    rw [happends.owner] at hown
    rw [happends.broken] at hopen
    by_cases he : conn = conn'
    · subst he
      obtain rfl := hface.only fd' hown
      have hdone : left.drop n = [] ∧ after = .keep := by
        by_contra hopen'
        exact hfree conn (by simp only [facing]; exact if_neg hopen')
      obtain ⟨rfl, node, hnode, hconn, rfl⟩ := hkeep hdone.2
      refine ⟨node, [], hnode, hconn, ?_⟩
      rw [hsaid, successResponse, hsplit, hdone.1, List.append_nil]
    · rw [happends.others conn he]
      refine h.greeted fd' conn hown hopen ?_
      intro other hfaces
      obtain ⟨rfl, -⟩ := Prod.mk.inj (Option.some.inj (hbefore.symm.trans hfaces))
      exact he (hface.owner conn hown)
  · intro fd' conn hfaces
    obtain ⟨rfl, rfl⟩ := hafter fd' conn hfaces
    refine ⟨hface.latest, happends.owner ▸ hface.owner, happends.owner ▸ hface.only, ?_, hface.idle⟩
    intro node hnode hconn
    have hmine := hface.mine node hnode hconn
    rw [heq] at hmine
    cases after <;> exact hmine
  · intro fd' conn hfaces hsilent
    cases hsilent
  · intro fd' conn left' after' hacceptor
    injection hacceptor with hfd hconn hl ha
    subst hfd hconn hl ha
    refine ⟨by rw [happends.replies]; exact hunanswered, status, details, _, [], hsplit, hsaid,
      fun hne => absurd rfl hne, hkeep⟩
  · rw [happends.owner]
    exact h.talkers

theorem facing_closing {a : Acceptor} {fd conn : Nat} {after : After} (h : Faces s k fd conn)
    (ha : a = .closing fd after) : ({ s with acceptor := a } : Server).facing = some (fd, conn) := by
  subst ha
  have hlatest := h.latest
  change some (fd, s.accepted - 1) = some (fd, conn)
  rw [← hlatest, Nat.add_sub_cancel]

theorem Spoken.concludes (h : Spoken s k) {fd conn : Nat} {left : List UInt8} {after : After}
    (heq : s.acceptor = .replying fd conn left after)
    (hdone : (left = [] ∧ after = .keep) ∨
      (after = .keep → ∀ other, k.owner fd = some other → k.broken other = true)) :
    Spoken { s with acceptor := afterReply fd after } k := by
  have hrefl := quiets_refl s
  by_cases hkeep : after = .keep
  · subst hkeep
    refine h.parts ⟨rfl, rfl, rfl, rfl⟩ { hrefl with } (fun _ _ => ⟨rfl, rfl⟩) (shrinks_refl k) rfl ?_
      rfl
    intro fd' conn' hfaces
    rcases hdone with hempty | hbroken
    · rw [facing, heq] at hfaces
      simp [hempty] at hfaces
    · rw [facing, heq] at hfaces
      simp only [and_true] at hfaces
      split at hfaces
      · cases hfaces
      · obtain ⟨rfl, rfl⟩ := Prod.mk.inj (Option.some.inj hfaces)
        exact hbroken rfl
  · have hbefore := facing_replying heq fun hdone => hkeep hdone.2
    have hacceptor : afterReply fd after = .closing fd after := by
      cases after with
      | keep => exact absurd rfl hkeep
      | _ => rfl
    refine h.onward hbefore ⟨rfl, rfl, rfl, rfl⟩ ⟨rfl, rfl, rfl⟩
      (facing_closing (h.faces fd conn hbefore) hacceptor) ?_ ?_ ?_
    · rw [hacceptor]
      simp [Acceptor.speaks]
    · intro node hmine
      rw [hacceptor]
      rw [heq] at hmine
      rcases hmine with howned | hkeeps
      · exact Or.inl howned
      · cases after with
        | keep => exact absurd rfl hkeep
        | _ => cases hkeeps
    · intro fd' conn' left' after' hreply
      change afterReply fd after = _ at hreply
      rw [hacceptor] at hreply
      cases hreply

-- write_message returns 0
theorem Spoken.counts (h : Spoken s k) {conn : Nat} (hconn : conn < s.accepted)
    (hzero : k.replies conn = 0) (hresponded : Responded (k.written conn))
    (hspeaks : ∀ fd conn, s.facing = some (fd, conn) → s.acceptor.speaks = true)
    (hnot : ∀ fd conn left after, s.acceptor ≠ .replying fd conn left after) :
    Spoken s { k with replies := Function.update k.replies conn (k.replies conn + 1) } := by
  refine ⟨?_, h.connections, h.unused, h.order, ?_, h.greeted, ?_, ?_, ?_, h.talkers⟩
  · intro other ho
    obtain ⟨hwritten, hreplies, hnone⟩ := h.fresh other ho
    have hne : other ≠ conn := by
      rintro rfl
      exact absurd hconn (Nat.not_lt.mpr ho)
    exact ⟨hwritten, (Function.update_of_ne hne _ _).trans hreplies, hnone⟩
  · intro other
    change Function.update k.replies conn _ other ≤ 1 ∧ (Function.update k.replies conn _ other = 1 → _)
    by_cases he : other = conn
    · subst he
      rw [Function.update_self, hzero]
      exact ⟨Nat.le_refl _, fun _ => hresponded⟩
    · rw [Function.update_of_ne he]
      exact h.responded other
  · intro fd conn' hfaces
    obtain ⟨hlatest, howner, honly, hmine, hidle⟩ := h.faces fd conn' hfaces
    exact ⟨hlatest, howner, honly, hmine, hidle⟩
  · intro fd conn' hfaces hsilent
    rw [hspeaks fd conn' hfaces] at hsilent
    cases hsilent
  · intro fd conn' left after heq
    exact absurd heq (hnot fd conn' left after)

theorem Spoken.replied (h : Spoken s k) {fd conn : Nat} {after : After}
    (heq : s.acceptor = .replying fd conn [] after) :
    Spoken { s with acceptor := afterReply fd after }
      { k with replies := Function.update k.replies conn (k.replies conn + 1) } := by
  obtain ⟨hunanswered, status, details, sent, samples, hmessage, hbytes, -, -⟩ :=
    h.replying fd conn [] after heq
  rw [List.append_nil] at hmessage
  subst hmessage
  have hconn : conn < s.accepted := by
    by_contra hc
    have hempty := (h.fresh conn (Nat.le_of_not_lt hc)).1
    rw [hbytes] at hempty
    simp [replyBytes, writeMessage] at hempty
  have hmoved : Spoken { s with acceptor := afterReply fd after } k := by
    refine h.concludes heq ?_
    by_cases hkeep : after = .keep
    · exact Or.inl ⟨rfl, hkeep⟩
    · exact Or.inr fun hk => absurd hk hkeep
  refine hmoved.counts hconn hunanswered ⟨status, details, samples, hbytes⟩ ?_ ?_
  · intro fd' conn' hfaces
    cases after <;> first | rfl | cases hfaces
  · intro fd' conn' left' after' hacceptor
    cases after <;> cases hacceptor

theorem setup_facing {node : Nat} (hsetup : s.acceptor.setup = some node) :
    s.facing = some ((s.config node).clientSocket, s.connection node) ∧
      s.acceptor.speaks = false ∧ s.acceptor.owned = some node ∧ s.acceptor.keeps = false := by
  unfold facing
  cases hacceptor : s.acceptor <;> rw [hacceptor] at hsetup <;> cases hsetup <;>
    exact ⟨rfl, rfl, rfl, rfl⟩

theorem Spoken.prepares (h : Spoken s k) {node : Nat} (hbefore : s.acceptor.setup = some node)
    (hsame : SameClients s t) (hthreads : SameThreads s t) (hafter : t.acceptor.setup = some node) :
    Spoken t k := by
  obtain ⟨hfaces, hsilent, howned, hkeeps⟩ := setup_facing hbefore
  obtain ⟨hfaces', hsilent', howned', -⟩ := setup_facing hafter
  rw [hsame.config, hsame.connection] at hfaces'
  refine h.onward hfaces hsame hthreads hfaces' (fun _ => hsilent) ?_ ?_
  · intro other hmine
    rw [howned, hkeeps] at hmine
    rw [howned']
    exact hmine.imp_right (by simp)
  · intro fd conn left after heq
    rw [heq] at hsilent'
    cases hsilent'

theorem Spoken.answers (h : Spoken s k) {node : Nat} (ho : Owned s links)
    (hbefore : s.acceptor.setup = some node) (hsame : SameClients s t) (hthreads : SameThreads s t)
    {status : UInt8} {details : UInt32} {after : After}
    (hafter : t.acceptor = .replying (s.config node).clientSocket (s.connection node)
      (writeMessage status details) after)
    (hresult : after.node = some node ∨
      after = .keep ∧ status = responseStatusSuccess ∧ details = (s.config node).id) :
    Spoken t k := by
  obtain ⟨hfaces, hsilent, howned, hkeeps⟩ := setup_facing hbefore
  have hactive := (ho.current node howned).1
  have hkeep : after = .keep → status = responseStatusSuccess ∧
      ∃ other < s.nodes, s.connection other = s.connection node ∧ details = (s.config other).id := by
    intro hk
    rcases hresult with hnode | ⟨-, hstatus, hdetails⟩
    · rw [hk] at hnode
      cases hnode
    · exact ⟨hstatus, node, hactive.1, rfl, hdetails⟩
  refine h.onward hfaces hsame hthreads ?_ (fun _ => hsilent) ?_ ?_
  · exact facing_replying hafter fun hdone => by simp [writeMessage] at hdone
  · intro other hmine
    rw [howned, hkeeps] at hmine
    rw [hafter]
    rcases hresult with hnode | ⟨rfl, -⟩
    · refine Or.inl (hnode.trans ?_)
      exact hmine.resolve_right (by simp)
    · exact Or.inr rfl
  · intro fd conn left after' heq
    rw [hafter] at heq
    injection heq with hfd hconn hleft hafter'
    subst hfd hconn hleft hafter'
    exact replying_same hsame (shrinks_refl k) (replying_begins h hfaces hsilent _ _ hkeep)

theorem Spoken.receives (h : Spoken s k) {fd conn : Nat} {received : Received}
    (heq : s.acceptor = .reading fd conn) (ht : Reception c s fd conn received t) : Spoken t k := by
  have hfaces : s.facing = some (fd, conn) := by
    rw [facing, heq]
  have hmine : ∀ node, ¬ (s.acceptor.owned = some node ∨ s.acceptor.keeps = true) := by
    simp [heq, Acceptor.owned, Acceptor.keeps]
  have hsilent : s.acceptor.speaks = false := by
    rw [heq]
    rfl
  cases ht with
  | closes =>
    have hafter := facing_closing (h.faces fd conn hfaces) (a := .closing fd .drop) rfl
    refine h.onward hfaces ⟨rfl, rfl, rfl, rfl⟩ ⟨rfl, rfl, rfl⟩ hafter (fun _ => hsilent) ?_ ?_
    · exact fun node hm => absurd hm (hmine node)
    · intro fd' conn' left after hacceptor
      cases hacceptor
  | @answers counter status details =>
    refine h.onward hfaces ⟨rfl, rfl, rfl, rfl⟩ ⟨rfl, rfl, rfl⟩ ?_ (fun _ => hsilent) ?_ ?_
    · exact facing_replying rfl (by simp)
    · exact fun node hm => absurd hm (hmine node)
    · intro fd' conn' left after hacceptor
      injection hacceptor with hfd hconn hleft hafter
      subst hfd hconn hleft hafter
      have hbegins : Replying s k conn (writeMessage status details) .drop :=
        replying_begins h hfaces hsilent status details (by simp)
      exact ⟨hbegins.unanswered, hbegins.bytes⟩
  | @serves counter config hserve =>
    have hcounted : Spoken { s with clientCounter := counter } k := by
      refine h.stays ⟨rfl, rfl, rfl, rfl⟩ rfl (shrinks_refl k) ?_ (fun _ _ htalks => htalks) ?_
      · exact fun _ _ _ _ _ _ _ hidle => hidle
      · exact fun _ _ => ⟨rfl, rfl⟩
    exact hcounted.serves heq (examine_serve hserve).1

theorem Spoken.starts (h : Spoken s k) {node : Nat} (ho : Owned s links)
    (heq : s.acceptor = .startingDsp node) :
    Spoken { s.setDsp node .waiting with acceptor := .creatingThread node } k := by
  have hsetup : s.acceptor.setup = some node := by
    rw [heq]
    rfl
  obtain ⟨hfaces, hsilent, howned, hkeeps⟩ := setup_facing hsetup
  have hactive := (ho.current node howned).1
  have hother : ∀ other, other ≠ node → Function.update s.dsp node .waiting other = s.dsp other :=
    fun other hne => Function.update_of_ne hne _ _
  refine h.moves ⟨rfl, rfl, rfl, rfl⟩ (shrinks_refl k) ?_ ?_ ?_ ?_ ?_ ?_
  · intro fd conn _ other _ _ _ hidle
    refine ⟨hidle.1, ?_⟩
    change (Function.update s.dsp node .waiting other).writes = false
    by_cases he : other = node
    · rw [he, Function.update_self]
      rfl
    · rw [hother other he]
      exact hidle.2
  · intro other _ htalks
    by_cases he : other = node
    · rw [he]
      exact Or.inr hfaces
    · have hdsp := hother other he
      have hidle : ({ s.setDsp node .waiting with acceptor := .creatingThread node } : Server).Idle other ↔
          s.Idle other := idle_same hdsp rfl
      obtain ⟨hlive, hmore⟩ := htalks
      change (Function.update s.dsp node .waiting other).live = true at hlive
      rw [hdsp] at hlive
      exact Or.inl ⟨hlive, hmore.imp_right (mt hidle.mpr)⟩
  · intro other hn
    have hne := hactive.below hn
    exact ⟨hother other hne, rfl⟩
  · intro fd conn hafter
    refine ⟨hfaces.trans hafter, fun _ => hsilent, ?_⟩
    rw [howned, hkeeps]
    exact fun other hmine => hmine
  · intro fd conn hbefore
    exact Or.inl (hfaces.symm.trans hbefore)
  · intro fd conn left after hacceptor
    cases hacceptor

theorem Spoken.closes (h : Spoken s k) {fd : Nat} {after : After} (heq : s.acceptor = .closing fd after)
    (conn : Nat) : Spoken { s with acceptor := afterClose after } (k.close fd conn) := by
  have hrefl := quiets_refl s
  refine h.parts ⟨rfl, rfl, rfl, rfl⟩ { hrefl with } (fun _ _ => ⟨rfl, rfl⟩) (shrinks_close k fd conn)
    ?_ ?_ ?_
  · cases after <;> rfl
  · intro fd' conn' hfaces other howner
    rw [facing, heq] at hfaces
    obtain ⟨rfl, -⟩ := Prod.mk.inj (Option.some.inj hfaces)
    change Function.update k.owner fd none fd = some other at howner
    rw [Function.update_self] at howner
    cases howner
  · cases after <;> rfl

theorem Spoken.rests (h : Spoken s k) (hbefore : s.facing = none) (hsame : SameClients s t)
    (hthreads : SameThreads s t) (hshrinks : Shrinks k k') (hafter : t.facing = none)
    (hnot : t.acceptor.speaks = false) : Spoken t k' := by
  refine h.parts hsame (sameThreads_quiets hthreads) ?_ hshrinks hafter ?_ hnot
  · exact fun node _ => ⟨congrFun hthreads.dsp node, congrFun hthreads.queue node⟩
  · intro fd conn hfaces
    rw [hbefore] at hfaces
    cases hfaces

theorem entered_spoken (h : Spoken s k) (ho : Owned s links) {node : Nat} {links' : List Nat}
    (heq : s.acceptor = .locking node) (ht : Entered s links node links' t) : Spoken t k := by
  have hsetup : s.acceptor.setup = some node := by
    rw [heq]
    rfl
  cases ht with
  | joins => exact h.prepares hsetup ⟨rfl, rfl, rfl, rfl⟩ ⟨rfl, rfl, rfl⟩ rfl
  | waits => exact h.prepares hsetup ⟨rfl, rfl, rfl, rfl⟩ ⟨rfl, rfl, rfl⟩ rfl
  | rejects => exact h.answers ho hsetup ⟨rfl, rfl, rfl, rfl⟩ ⟨rfl, rfl, rfl⟩ rfl (Or.inl rfl)
  | appends =>
    exact h.answers ho hsetup ⟨rfl, rfl, rfl, rfl⟩ ⟨rfl, rfl, rfl⟩ rfl (Or.inr ⟨rfl, rfl, rfl⟩)

theorem Spoken.acceptor (h : Spoken s k) (ho : Owned s links) {e : AcceptorEvent}
    (hok : ∀ fd, e = .accept fd → ∀ node < s.nodes, s.OnSocket node → s.HasSamples node →
      (s.config node).clientSocket ≠ fd)
    (ht : AcceptorMove c s e t) (hk : k.acceptorStep s e = some k') : Spoken t k' := by
  have hnone : ∀ a, s.acceptor = a → a.setup = none → a.speaks = false →
      (∀ fd conn, a ≠ .reading fd conn) → s.facing = none := by
    intro a ha hsetup hspeaks hreading
    unfold facing
    rw [ha]
    cases a with
    | reading fd conn => exact absurd rfl (hreading fd conn)
    | replying => cases hspeaks
    | closing => cases hspeaks
    | _ => first | rfl | cases hsetup
  cases ht with
  | checkRunning heq =>
    obtain rfl := Option.some.inj hk
    have hbefore := hnone _ heq rfl rfl (by simp)
    cases s.isRunning <;>
      exact h.rests hbefore ⟨rfl, rfl, rfl, rfl⟩ ⟨rfl, rfl, rfl⟩ (shrinks_refl k) rfl rfl
  | accept heq => exact h.accepts heq (hok _ rfl) hk
  | receive heq ht =>
    obtain rfl := Option.some.inj hk
    exact h.receives heq ht
  | startDsp heq =>
    obtain rfl := Option.some.inj hk
    exact h.starts ho heq
  | startDspFails heq =>
    obtain rfl := Option.some.inj hk
    exact h.answers ho (by rw [heq]; rfl) ⟨rfl, rfl, rfl, rfl⟩ ⟨rfl, rfl, rfl⟩ rfl (Or.inl rfl)
  | createThread heq =>
    obtain rfl := Option.some.inj hk
    exact h.prepares (by rw [heq]; rfl) ⟨rfl, rfl, rfl, rfl⟩ ⟨rfl, rfl, rfl⟩ rfl
  | createThreadFails heq =>
    obtain rfl := Option.some.inj hk
    exact h.answers ho (by rw [heq]; rfl) ⟨rfl, rfl, rfl, rfl⟩ ⟨rfl, rfl, rfl⟩ rfl (Or.inl rfl)
  | lock heq hfree ht =>
    obtain rfl := Option.some.inj hk
    obtain ⟨links', -, hentered⟩ := owned_enterList ho heq hfree ht
    exact entered_spoken h ho heq hentered
  | wakeStopped heq =>
    obtain rfl := Option.some.inj hk
    exact h.prepares (by rw [heq]; rfl) ⟨rfl, rfl, rfl, rfl⟩ ⟨rfl, rfl, rfl⟩ rfl
  | joinShutdown heq =>
    obtain rfl := Option.some.inj hk
    exact h.prepares (by rw [heq]; rfl) ⟨rfl, rfl, rfl, rfl⟩ ⟨rfl, rfl, rfl⟩ rfl
  | startSdr heq =>
    obtain rfl := Option.some.inj hk
    exact h.answers ho (by rw [heq]; rfl) ⟨rfl, rfl, rfl, rfl⟩ ⟨rfl, rfl, rfl⟩ rfl
      (Or.inr ⟨rfl, rfl, rfl⟩)
  | startSdrFails heq =>
    obtain rfl := Option.some.inj hk
    exact h.answers ho (by rw [heq]; rfl) ⟨rfl, rfl, rfl, rfl⟩ ⟨rfl, rfl, rfl⟩ rfl (Or.inl rfl)
  | reply heq hn =>
    simp only [Sockets.acceptorStep, heq] at hk
    exact h.replies heq hn hk
  | replyFails heq =>
    simp only [Sockets.acceptorStep, heq] at hk
    obtain ⟨rfl, hbroken⟩ := writeFails_some hk
    exact h.concludes heq (Or.inr fun _ => hbroken)
  | replied heq =>
    simp only [Sockets.acceptorStep, heq] at hk
    obtain rfl := Option.some.inj hk
    exact h.replied heq
  | close heq =>
    simp only [Sockets.acceptorStep, heq] at hk
    obtain rfl := Option.some.inj hk
    exact h.closes heq _
  | closeNode heq | destroyNode heq | destroyEmpty heq =>
    simp only [Sockets.acceptorStep, heq] at hk
    obtain rfl := Option.some.inj hk
    exact h.rests (hnone _ heq rfl rfl (by simp)) ⟨rfl, rfl, rfl, rfl⟩ ⟨rfl, rfl, rfl⟩
      (shrinks_close k _ _) rfl rfl
  | @joinDsp node heq =>
    obtain rfl := Option.some.inj hk
    have hbefore := hnone _ heq rfl rfl (by simp)
    have hquiets : Quiets s (s.setDsp node .destroyed) :=
      quiets_setDsp rfl (by simp [Dsp.live])
    have hactive := (ho.current node (by rw [heq]; rfl)).1
    refine h.parts ⟨rfl, rfl, rfl, rfl⟩ { hquiets with } ?_ (shrinks_refl k) rfl ?_ rfl
    · intro other hn
      have hne := hactive.below hn
      exact ⟨Function.update_of_ne hne _ _, rfl⟩
    · intro fd conn hfaces
      rw [hbefore] at hfaces
      cases hfaces
  | stopRunning heq hhead =>
    simp only [Sockets.acceptorStep, hhead] at hk
    obtain rfl := Option.some.inj hk
    exact h.rests (hnone _ heq rfl rfl (by simp)) ⟨rfl, rfl, rfl, rfl⟩ ⟨rfl, rfl, rfl⟩
      (shrinks_shutdown k _) rfl rfl
  | stopStopped heq hhead =>
    simp only [Sockets.acceptorStep, hhead] at hk
    obtain rfl := Option.some.inj hk
    have hbefore := hnone _ heq rfl rfl (by simp)
    refine h.rests hbefore ⟨rfl, rfl, rfl, rfl⟩ ⟨rfl, rfl, rfl⟩ (shrinks_shutdown k _) ?_ ?_
    · exact hbefore
    · change s.acceptor.speaks = false
      rw [heq]
      rfl
  | stopLast heq hhead | stopWaits heq hhead =>
    simp only [Sockets.acceptorStep, hhead] at hk
    obtain rfl := Option.some.inj hk
    exact h.rests (hnone _ heq rfl rfl (by simp)) ⟨rfl, rfl, rfl, rfl⟩ ⟨rfl, rfl, rfl⟩
      (shrinks_refl k) rfl rfl
  | acceptFails heq | unlock heq | cleanup heq | lockStop heq | wakeTerminated heq | wakeSdr heq
  | joinSdr heq =>
    obtain rfl := Option.some.inj hk
    exact h.rests (hnone _ heq rfl rfl (by simp)) ⟨rfl, rfl, rfl, rfl⟩ ⟨rfl, rfl, rfl⟩
      (shrinks_refl k) rfl rfl

theorem Spoken.shutdown (h : Spoken s k) {e : ShutdownEvent} (ht : ShutdownMove s e t) :
    Spoken t k := by
  cases ht <;>
    exact h.stays ⟨rfl, rfl, rfl, rfl⟩ rfl (shrinks_refl k) (fun _ _ _ _ _ _ _ hidle => hidle)
      (fun _ _ htalks => htalks) (fun _ _ => ⟨rfl, rfl⟩)

theorem spoken_start : Spoken start Sockets.start := by
  refine ⟨?_, ?_, ?_, ?_, ?_, ?_, ?_, ?_, ?_, ?_⟩
  · simp [Sockets.start]
  · simp [start]
  · simp [start]
  · exact fun _ => Or.inl ⟨0, 0, [], List.nil_prefix, rfl⟩
  · simp [Sockets.start]
  · simp [Sockets.start]
  · simp [start, facing, Acceptor.setup]
  · simp [start, facing, Acceptor.setup]
  · simp [start]
  · simp [start]

end Server

namespace System

variable {s t : System} {c : ServerConfig}

structure Answers (s : System) (conn : Nat) : Prop where
  order : Partial (s.sockets.written conn) ∨ s.server.Greeted conn (s.sockets.written conn)
  once : s.sockets.replies conn ≤ 1
  complete : s.sockets.replies conn = 1 → Responded (s.sockets.written conn)

-- accept does not return the descriptor number of a client whose dsp thread may still write
def AnswersFirst (s : System) : SystemEvent → Prop
  | .server .sdrCallback => s.server.CallsBackAfter
  | .server (.acceptor (.accept fd)) => ∀ node < s.server.nodes, s.server.OnSocket node →
      s.server.HasSamples node → (s.server.config node).clientSocket ≠ fd
  | _ => True

instance (s : System) (e : SystemEvent) : Decidable (s.AnswersFirst e) := by
  unfold AnswersFirst
  split <;> infer_instance

theorem spoken_step {e : SystemEvent} {links : List Nat} (h : s.server.Spoken s.sockets)
    (ho : s.server.Owned links) (hok : s.AnswersFirst e) (ht : s.step c e = some t) :
    t.server.Spoken t.sockets := by
  cases e with
  | hangUp connection =>
    obtain rfl := Option.some.inj ht
    refine h.stays ⟨rfl, rfl, rfl, rfl⟩ rfl (Server.shrinks_hangUp _ _) ?_ (fun _ _ htalks => htalks) ?_
    · exact fun _ _ _ _ _ _ _ hidle => hidle
    · exact fun _ _ => ⟨rfl, rfl⟩
  | server event =>
    obtain ⟨hserver, hsockets⟩ := step_server ht
    cases event with
    | acceptor event =>
      refine h.acceptor ho ?_ (Server.acceptorStep_move hserver) hsockets
      rintro fd rfl
      exact hok
    | worker node event => exact h.worker ho (Server.workerStep_move hserver) hsockets
    | dsp node event => exact h.dsp hserver hsockets
    | sdrCallback =>
      rw [← Option.some.inj hsockets]
      exact h.callback ho hok hserver
    | stopTcpServer =>
      rw [← Option.some.inj hsockets, ← Option.some.inj hserver]
      refine h.stays ⟨rfl, rfl, rfl, rfl⟩ rfl (Server.shrinks_refl _) ?_ (fun _ _ htalks => htalks) ?_
      · exact fun _ _ _ _ _ _ _ hidle => hidle
      · exact fun _ _ => ⟨rfl, rfl⟩
    | shutdown event =>
      rw [← Option.some.inj hsockets]
      exact h.shutdown (Server.shutdownStep_move hserver)

theorem response_first (h : Transition.Reaches (step c) AnswersFirst start s) :
    ∀ conn, s.Answers conn := by
  have hspoken : s.server.Spoken s.sockets := by
    refine h.invariant (P := fun s => s.server.Spoken s.sockets) Server.spoken_start ?_
    intro s e t hs hprev hok ht
    obtain ⟨links, ho⟩ := Server.owned_reaches (reaches_server hs)
    exact spoken_step hprev ho hok ht
  intro conn
  exact ⟨hspoken.order conn, (hspoken.responded conn).1, (hspoken.responded conn).2⟩

def samplesSent : List Event := [.sdrCallback, .dsp 0 (.take 8), .dsp 0 (.write 8)]

def answeredRun : List SystemEvent :=
  (Server.arrives 5 100000 ++ Server.firstLinked ++ Server.replySent ++ samplesSent).map .server

theorem response_first_samples : ∃ s,
    Transition.run (Transition.guarded (step Server.narrowBand) AnswersFirst) start answeredRun = some s ∧
      s.sockets.written 0 = successResponse 0 ++ sampleBytes (List.replicate 8 0) ∧
      ∀ conn, s.Answers conn := by
  have hrun : (Transition.run (Transition.guarded (step Server.narrowBand) AnswersFirst) start
      answeredRun).isSome := by decide
  refine ⟨_, (Option.some_get hrun).symm, rfl, ?_⟩
  exact response_first (Transition.reaches_guarded .start (Option.some_get hrun).symm)

def hurriedRun : List SystemEvent :=
  (Server.arrives 5 100000 ++ Server.firstLinked ++ samplesSent ++ Server.replySent).map .server

theorem samples_first : ∃ s, Transition.run (step Server.narrowBand) start hurriedRun = some s ∧
    Transition.Reachable (step Server.narrowBand) start s ∧
    s.sockets.written 0 = sampleBytes (List.replicate 8 0) ++ successResponse 0 ∧
    ¬ (Partial (s.sockets.written 0) ∨ s.server.Greeted 0 (s.sockets.written 0)) := by
  have hrun : (Transition.run (step Server.narrowBand) start hurriedRun).isSome := by decide
  have hwritten : ((Transition.run (step Server.narrowBand) start hurriedRun).get hrun).sockets.written 0 =
      sampleBytes (List.replicate 8 0) ++ successResponse 0 := rfl
  refine ⟨_, (Option.some_get hrun).symm,
    Transition.reachable_run .start (Option.some_get hrun).symm, hwritten, ?_⟩
  rw [hwritten]
  rintro (⟨status, details, sent, -, hbytes⟩ | ⟨node, samples, -, -, hbytes⟩)
  · cases sent <;> cases hbytes
  · cases hbytes

end System
end SdrServer
