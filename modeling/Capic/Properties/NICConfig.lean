import Capic.Cloud.Failover
import Capic.Effect.Live

/-!
# The failover IP on the NIC

`reconcileNICConfig` is to leave the machine's primary NIC with the failover IP. It has three
successful ends: the IP is there already; a PATCH of the NIC is pending, and was waited for; or it
sent a PATCH of its own and waited for that. Nobody looks at the NIC again, on any of them.

`NICWorld` is the NIC with every PATCH of it. An accepted PATCH is executed at some later time and
sets the list of IPs to the one that was sent. Others may send a PATCH at any time. A request that
was waited for is executed (`nicShows`).

`failover_ip_configured`: the IPs that were seen on the NIC are there in the end unless the PATCH of
another writer removed them since; and the failover IP is there if every PATCH of another writer that
was executed after the run's own has it, or after the NIC was read where the run has none
(`Carried`). `failover_ip_missing` is a run that waits for a PATCH that does not.
-/

namespace Capic.Properties

open Effect Effect.Go Cloud

/-! ## The NIC -/

/-- A PATCH of the NIC: where to ask for it, what was sent, whether the run at hand sent it, and
whether it was executed. -/
structure NICPatch where
  location : String
  ips : List String
  own : Bool
  executed : Bool

/-- The IPs of the NIC, every PATCH of it, and those executed since the run has read it, the newest
first. -/
structure NICWorld where
  ips : List String
  patches : List NICPatch
  log : List NICPatch

/-- Before a run: it has sent nothing, and read nothing. -/
structure NICWorld.Fresh (w : NICWorld) : Prop where
  own : ∀ x ∈ w.patches, x.own = false
  log : w.log = []

/-- A PATCH was accepted. -/
def NICWorld.accept (w : NICWorld) (x : NICPatch) : NICWorld :=
  { w with patches := x :: w.patches }

/-- How far a run has got, with the IPs it saw. -/
inductive NICStage where
  | start
  | read (seen : List String)
  /-- It waits for the request with this location. -/
  | waits (seen : List String) (location : String)
  | settled (seen : List String)
  | failed

/-- The NIC was read. -/
def NICStage.hasRead : NICStage → Bool
  | .start => false
  | _ => true

section

variable (ms : MachineScope) (failoverIP serverID nicID : String)

/-- The stage after the NIC was read. -/
def readNext (seen : List String) : (c : Call) → Call.Ans c → NICStage
  | .requestsGet .patch _, .ok items =>
    match matchRequest .nic (nicURL ms serverID nicID) [] (Client.sortRequests (deref items [])) with
    | .val (.ok (some ri)) => if ri.isPending then .waits seen ri.location else .read seen
    | _ => .read seen
  | .nicsPatch _ _ _ _, .ok location => .waits seen location
  | .nicsPatch _ _ _ _, .error _ => .failed
  | _, _ => .read seen

/-- The stage after a request was waited for. -/
def waitsNext (seen : List String) (location : String) : (c : Call) → Call.Ans c → NICStage
  | .waitForRequest url, .ok _ => if url = location then .settled seen else .waits seen location
  | _, _ => .waits seen location

/-- The stage after a call. -/
def nicNext (q : NICStage) (c : Call) (a : Call.Ans c) : NICStage :=
  match q with
  | .start =>
    match (serverSeen ms.name c a).map (findPrimaryNIC ms.name) with
    | some (.ok nic) => .read (deref nic.ips [])
    | _ => .start
  | .read seen => readNext ms serverID nicID seen c a
  | .waits seen location => waitsNext seen location c a
  | q => q

/-- The machine's server and its primary NIC are always the same. -/
def nicIdentified (c : Call) (a : Call.Ans c) : Prop :=
  ∀ server nic, serverSeen ms.name c a = some (some server) →
    findPrimaryNIC ms.name (some server) = .ok nic →
    server.id = some serverID ∧ nic.id = some nicID

/-- A PATCH of the NIC is sent once it was read, with the failover IP added. -/
def nicOk (q : NICStage) (c : Call) : Prop :=
  ∀ dc server nic ips, c = .nicsPatch dc server nic ips →
    dc = ms.datacenterID ∧ server = serverID ∧ nic = nicID ∧
    ∃ seen, q = .read seen ∧ ips = seen ++ [failoverIP]

/-- The stages as a monitor. -/
abbrev nicMonitor : Monitor Call Call.Ans where
  Phase := NICStage
  ok := nicOk ms failoverIP serverID nicID
  adm _ c a := nicIdentified ms serverID nicID c a
  next := nicNext ms serverID nicID
  panic _ := True

/-- What the cloud shows: the current IPs, true states of the requests, and that a request that was
waited for is executed. -/
def nicShows (w : NICWorld) (c : Call) (a : Call.Ans c) : Prop :=
  nicIdentified ms serverID nicID c a ∧
  match c, a with
  | .requestsGet .patch _, .ok items =>
    ∀ req ∈ deref items [], IsMatch .nic (nicURL ms serverID nicID) [] req →
      ∃ x ∈ w.patches, req.href = some x.location ∧
        ((req.status = .queued ∨ req.status = .running) → x.executed = false)
  | .waitForRequest url, .ok _ => ∀ x ∈ w.patches, x.location = url → x.executed = true
  | c, a => ∀ server nic, serverSeen ms.name c a = some (some server) →
    findPrimaryNIC ms.name (some server) = .ok nic → deref nic.ips [] = w.ips

/-- What a call does: a PATCH of the NIC may be accepted even if the call fails. -/
def nicMoves (w : NICWorld) : (c : Call) → Call.Ans c → NICWorld → Prop
  | .nicsPatch dc server nic ips, a, w' =>
    if dc = ms.datacenterID ∧ server = serverID ∧ nic = nicID then
      match a with
      | .ok location => w' = w.accept ⟨location, ips, true, false⟩
      | .error _ => w' = w ∨ ∃ location, w' = w.accept ⟨location, ips, true, false⟩
    else w' = w
  | _, _, w' => w' = w

/-- A PATCH is executed at a stage of the run. -/
def Executes (q : NICStage) (w : NICWorld) (x : NICPatch) (w' : NICWorld) : Prop :=
  ∃ newer older, w.patches = newer ++ x :: older ∧ x.executed = false ∧
    w' = ⟨x.ips, newer ++ { x with executed := true } :: older,
      if q.hasRead then x :: w.log else w.log⟩

/-- The NIC. At any time a PATCH is executed, or others send one. -/
abbrev nicLive : Live (nicMonitor ms failoverIP serverID nicID) where
  World := NICWorld
  exec w c a w' := nicShows ms serverID nicID w c a ∧ nicMoves ms serverID nicID w c a w'
  env q w w' := (∃ x, Executes q w x w') ∨
    ∃ location ips, w' = w.accept ⟨location, ips, false, false⟩

end

/-- The PATCHes of other writers that were executed after the last one of the run have the failover
IP: all of them, if none of the run was executed. -/
def Carried (failoverIP : String) (log : List NICPatch) : Prop :=
  ∀ x ∈ log.takeWhile (fun x => !x.own), failoverIP ∈ x.ips

/-! ## What is known at each stage -/

/-- The NIC has the IPs that were seen, or those of the last PATCH since. -/
def Current (seen : List String) (w : NICWorld) : Prop :=
  match w.log with
  | [] => w.ips = seen
  | x :: _ => w.ips = x.ips

/-- The run has sent nothing. -/
def SentNone (w : NICWorld) : Prop := ∀ x, x ∈ w.patches ∨ x ∈ w.log → x.own = false

/-- What the run has sent has these IPs. -/
def SentWith (ips : List String) (w : NICWorld) : Prop :=
  ∀ x, x ∈ w.patches ∨ x ∈ w.log → x.own = true → ips ⊆ x.ips

theorem SentNone.sentWith {w : NICWorld} (h : SentNone w) (ips : List String) : SentWith ips w := by
  intro x hx hown
  rw [h x hx] at hown
  cases hown

/-- What was seen is there, or another writer has removed it since. -/
theorem Current.kept {seen ips : List String} {w : NICWorld} (h : Current seen w)
    (hsent : SentWith (seen ++ ips) w) :
    ∀ ip ∈ seen, ip ∈ w.ips ∨ ∃ x ∈ w.log, x.own = false ∧ ip ∉ x.ips := by
  intro ip hip
  unfold Current at h
  split at h
  next =>
    rw [h]
    exact .inl hip
  next x log hlog =>
    by_cases hmem : ip ∈ x.ips
    · rw [h]
      exact .inl hmem
    · have hx : x ∈ w.log := hlog ▸ List.mem_cons_self ..
      refine .inr ⟨x, hx, ?_, hmem⟩
      cases hown : x.own with
      | false => rfl
      | true => exact absurd (hsent x (.inr hx) hown (List.mem_append_left _ hip)) hmem

/-- The failover IP is there if it was seen or something was executed since, and the PATCHes of the
other writers have it. -/
theorem Current.carried {seen : List String} {failoverIP : String} {w : NICWorld} (h : Current seen w)
    (hsent : SentWith (seen ++ [failoverIP]) w) (hseen : w.log = [] → failoverIP ∈ seen)
    (hcarried : Carried failoverIP w.log) : failoverIP ∈ w.ips := by
  unfold Current at h
  split at h
  next hlog =>
    rw [h]
    exact hseen hlog
  next x log hlog =>
    rw [h]
    cases hown : x.own with
    | true =>
      have hx : x ∈ w.log := hlog ▸ List.mem_cons_self ..
      exact hsent x (.inr hx) hown (by simp)
    | false =>
      refine hcarried x ?_
      rw [hlog, List.takeWhile_cons_of_pos (by simp [hown])]
      exact List.mem_cons_self ..

section

variable {ms : MachineScope} {failoverIP serverID nicID : String}

/-- What is known at a stage. -/
def Known (failoverIP : String) : NICStage → NICWorld → Prop
  | .start, w => SentNone w ∧ w.log = []
  | .read seen, w => SentNone w ∧ Current seen w
  | .waits seen location, w => SentWith (seen ++ [failoverIP]) w ∧ Current seen w ∧
    ∃ x ∈ w.patches, x.location = location ∧ (x.executed = true → w.log ≠ [])
  | .settled seen, w => SentWith (seen ++ [failoverIP]) w ∧ Current seen w ∧ w.log ≠ []
  | .failed, _ => True

section

variable {q : NICStage} {w w' : NICWorld} {x : NICPatch}

/-- The patches are the same, up to what was executed. -/
theorem Executes.mem (hx : Executes q w x w') {y : NICPatch} (hy : y ∈ w'.patches ∨ y ∈ w'.log) :
    ∃ y', (y' ∈ w.patches ∨ y' ∈ w.log) ∧ y'.own = y.own ∧ y'.ips = y.ips := by
  obtain ⟨newer, older, hpatches, -, rfl⟩ := hx
  have hmem : x ∈ w.patches := by simp [hpatches]
  rcases hy with hy | hy
  · rcases List.mem_append.mp hy with hy | hy
    · exact ⟨y, .inl (by simp [hpatches, hy]), rfl, rfl⟩
    rcases List.mem_cons.mp hy with rfl | hy
    · exact ⟨x, .inl hmem, rfl, rfl⟩
    · exact ⟨y, .inl (by simp [hpatches, hy]), rfl, rfl⟩
  · dsimp only at hy
    split at hy
    next =>
      rcases List.mem_cons.mp hy with rfl | hy
      · exact ⟨y, .inl hmem, rfl, rfl⟩
      · exact ⟨y, .inr hy, rfl, rfl⟩
    next => exact ⟨y, .inr hy, rfl, rfl⟩

theorem Executes.sentNone (hx : Executes q w x w') (h : SentNone w) : SentNone w' := by
  intro y hy
  obtain ⟨y', hy', hown, -⟩ := hx.mem hy
  rw [← hown]
  exact h y' hy'

theorem Executes.sentWith {ips : List String} (hx : Executes q w x w') (h : SentWith ips w) :
    SentWith ips w' := by
  intro y hy hyown
  obtain ⟨y', hy', hown, hips⟩ := hx.mem hy
  rw [← hips]
  exact h y' hy' (hown.trans hyown)

theorem Executes.location (hx : Executes q w x w') {y : NICPatch} (hy : y ∈ w.patches) :
    ∃ y' ∈ w'.patches, y'.location = y.location := by
  obtain ⟨newer, older, hpatches, -, rfl⟩ := hx
  rw [hpatches] at hy
  rcases List.mem_append.mp hy with hy | hy
  · exact ⟨y, List.mem_append_left _ hy, rfl⟩
  rcases List.mem_cons.mp hy with rfl | hy
  · exact ⟨_, List.mem_append_right _ (List.mem_cons_self ..), rfl⟩
  · exact ⟨y, List.mem_append_right _ (List.mem_cons_of_mem _ hy), rfl⟩

/-- Once the NIC was read, the PATCH is the last one since. -/
theorem Executes.log_eq (hx : Executes q w x w') (hq : q.hasRead = true) : w'.log = x :: w.log := by
  obtain ⟨newer, older, -, -, rfl⟩ := hx
  exact if_pos hq

theorem Executes.current (hx : Executes q w x w') (hq : q.hasRead = true) (seen : List String) :
    Current seen w' := by
  unfold Current
  rw [hx.log_eq hq]
  obtain ⟨newer, older, -, -, rfl⟩ := hx
  rfl

/-- What is known survives an execution. -/
theorem Known.executes (h : Known failoverIP q w) (hx : Executes q w x w') :
    Known failoverIP q w' := by
  cases q with
  | start =>
    refine ⟨hx.sentNone h.1, ?_⟩
    obtain ⟨newer, older, -, -, rfl⟩ := hx
    exact h.2
  | failed => trivial
  | read seen => exact ⟨hx.sentNone h.1, hx.current rfl seen⟩
  | waits seen location =>
    obtain ⟨hsent, -, y, hy, hlocation, -⟩ := h
    obtain ⟨y', hy', hsame⟩ := hx.location hy
    refine ⟨hx.sentWith hsent, hx.current rfl seen, y', hy', hsame.trans hlocation, fun _ => ?_⟩
    simp [hx.log_eq rfl]
  | settled seen =>
    refine ⟨hx.sentWith h.1, hx.current rfl seen, ?_⟩
    simp [hx.log_eq rfl]

/-- What is known survives the PATCH of another writer. -/
theorem Known.accept (h : Known failoverIP q w) (hx : x.own = false) :
    Known failoverIP q (w.accept x) := by
  have hmem : ∀ y, y ∈ (w.accept x).patches ∨ y ∈ (w.accept x).log →
      y = x ∨ y ∈ w.patches ∨ y ∈ w.log := by
    intro y hy
    rcases hy with hy | hy
    · exact (List.mem_cons.mp hy).imp_right .inl
    · exact .inr (.inr hy)
  have hnone : SentNone w → SentNone (w.accept x) := by
    intro hnone y hy
    rcases hmem y hy with rfl | hy
    · exact hx
    · exact hnone y hy
  have hwith : ∀ {ips}, SentWith ips w → SentWith ips (w.accept x) := by
    intro ips hwith y hy hown
    rcases hmem y hy with rfl | hy
    · cases hx.symm.trans hown
    · exact hwith y hy hown
  cases q with
  | start => exact ⟨hnone h.1, h.2⟩
  | failed => trivial
  | read seen => exact ⟨hnone h.1, h.2⟩
  | settled seen => exact ⟨hwith h.1, h.2⟩
  | waits seen location =>
    obtain ⟨hsent, hcurrent, y, hy, hwaited⟩ := h
    exact ⟨hwith hsent, hcurrent, y, List.mem_cons_of_mem _ hy, hwaited⟩

end

/-- Nothing but a PATCH changes anything. -/
theorem nicMoves_eq {w w' : NICWorld} {c : Call} {a : Call.Ans c}
    (h : nicMoves ms serverID nicID w c a w')
    (hc : ∀ dc server nic ips, c ≠ .nicsPatch dc server nic ips) : w' = w := by
  cases c with
  | nicsPatch dc server nic ips => exact absurd rfl (hc dc server nic ips)
  | _ => exact h

theorem nicMoves_patch {w w' : NICWorld} {ips : List String} {location : String}
    (h : nicMoves ms serverID nicID w (.nicsPatch ms.datacenterID serverID nicID ips)
      (.ok location) w') : w' = w.accept ⟨location, ips, true, false⟩ := by
  simpa [nicMoves] using h

/-- A NIC that is seen is seen with its current IPs. -/
theorem nicShows.seen {w : NICWorld} {c : Call} {a : Call.Ans c}
    (h : nicShows ms serverID nicID w c a) {server : Option Server} {nic : Nic}
    (hserver : serverSeen ms.name c a = some server)
    (hnic : findPrimaryNIC ms.name server = .ok nic) : deref nic.ips [] = w.ips := by
  match server with
  | none => exact nomatch hnic
  | some server =>
    cases c with
    | serversGet dc => exact h.2 server nic hserver hnic
    | serversFindById dc id => exact h.2 server nic hserver hnic
    | _ => exact nomatch hserver

/-- A pending request that is found is a PATCH that is not executed. -/
theorem nicShows.pending {w : NICWorld} {url : String} {items : Option (List Request)}
    (h : nicShows ms serverID nicID w (.requestsGet .patch url) (.ok items)) {ri : RequestInfo}
    (hri : matchRequest .nic (nicURL ms serverID nicID) [] (Client.sortRequests (deref items [])) =
      .val (.ok (some ri))) (hpending : ri.isPending = true) :
    ∃ x ∈ w.patches, x.location = ri.location ∧ x.executed = false := by
  obtain ⟨before, req, after, hsplit, -, hmatch, hstatus, hhref⟩ := matchRequest_some hri
  have hreq : req ∈ deref items [] := by
    rw [← (Client.sortRequests_perm _).mem_iff, hsplit]
    exact List.mem_append_right _ (List.mem_cons_self ..)
  obtain ⟨x, hx, hlocation, hwaiting⟩ := h.2 req hreq hmatch
  refine ⟨x, hx, Option.some.inj (hlocation.symm.trans hhref), hwaiting ?_⟩
  rw [hstatus]
  simpa [RequestInfo.isPending] using hpending

theorem Known.read_call {seen : List String} {w w' : NICWorld} {c : Call} {a : Call.Ans c}
    (h : Known failoverIP (.read seen) w)
    (hok : nicOk ms failoverIP serverID nicID (.read seen) c)
    (hshows : nicShows ms serverID nicID w c a) (hmoves : nicMoves ms serverID nicID w c a w') :
    Known failoverIP (readNext ms serverID nicID seen c a) w' := by
  by_cases hc : ∃ dc server nic ips, c = .nicsPatch dc server nic ips
  · -- the PATCH of the run
    obtain ⟨dc, server, nic, ips, rfl⟩ := hc
    obtain ⟨rfl, rfl, rfl, seen', hseen, rfl⟩ := hok dc server nic ips rfl
    obtain rfl := NICStage.read.inj hseen
    match a with
    | .error e => exact trivial
    | .ok location =>
      obtain rfl := nicMoves_patch hmoves
      refine ⟨fun x hx hown => ?_, h.2, _, List.mem_cons_self .., rfl, fun hexecuted => nomatch hexecuted⟩
      rcases hx with hx | hx
      · rcases List.mem_cons.mp hx with rfl | hx
        · exact List.Subset.refl _
        · exact h.1.sentWith _ x (.inl hx) hown
      · exact h.1.sentWith _ x (.inr hx) hown
  · obtain rfl := nicMoves_eq hmoves fun dc server nic ips heq => hc ⟨dc, server, nic, ips, heq⟩
    unfold readNext
    split
    next items =>
      split
      next ri hri =>
        split
        next hpending =>
          obtain ⟨x, hx, hlocation, hwaiting⟩ := hshows.pending hri hpending
          refine ⟨h.1.sentWith _, h.2, x, hx, hlocation, fun hexecuted => ?_⟩
          rw [hwaiting] at hexecuted
          exact nomatch hexecuted
        next => exact h
      next => exact h
    next => exact absurd ⟨_, _, _, _, rfl⟩ hc
    next => exact trivial
    next => exact h

theorem Known.waits_call {seen : List String} {location : String} {w : NICWorld}
    {c : Call} {a : Call.Ans c} (h : Known failoverIP (.waits seen location) w)
    (hshows : nicShows ms serverID nicID w c a) :
    Known failoverIP (waitsNext seen location c a) w := by
  unfold waitsNext
  split
  next url _ =>
    split
    next hurl =>
      obtain ⟨hsent, hcurrent, x, hx, hlocation, hexecuted⟩ := h
      exact ⟨hsent, hcurrent, hexecuted (hshows.2 x hx (hlocation.trans hurl.symm))⟩
    next => exact h
  next => exact h

/-- What is known after a call. -/
theorem Known.call {q : NICStage} {w w' : NICWorld} {c : Call} {a : Call.Ans c}
    (h : Known failoverIP q w) (hok : nicOk ms failoverIP serverID nicID q c)
    (hshows : nicShows ms serverID nicID w c a) (hmoves : nicMoves ms serverID nicID w c a w') :
    Known failoverIP (nicNext ms serverID nicID q c a) w' := by
  have hsame : (∀ seen, q ≠ .read seen) → w' = w := by
    intro hq
    refine nicMoves_eq hmoves fun dc server nic ips hc => ?_
    obtain ⟨-, -, -, seen, hread, -⟩ := hok dc server nic ips hc
    exact hq seen hread
  cases q with
  | start =>
    obtain rfl := hsame fun _ heq => nomatch heq
    unfold nicNext
    simp only
    split
    next nic hnic =>
      obtain ⟨server, hserver, hnic⟩ := Option.map_eq_some_iff.mp hnic
      refine ⟨h.1, ?_⟩
      unfold Current
      rw [h.2]
      exact (hshows.seen hserver hnic).symm
    next => exact h
  | read seen => exact h.read_call hok hshows hmoves
  | waits seen location =>
    obtain rfl := hsame fun _ heq => nomatch heq
    exact h.waits_call hshows
  | settled seen =>
    obtain rfl := hsame fun _ heq => nomatch heq
    exact h
  | failed => exact trivial

/-! ## The stages of a run -/

theorem nicNext_seen {c : Call} {a : Call.Ans c} {server : Option Server} {nic : Nic}
    (hserver : serverSeen ms.name c a = some server)
    (hnic : findPrimaryNIC ms.name server = .ok nic) :
    nicNext ms serverID nicID .start c a = .read (deref nic.ips []) := by
  simp [nicNext, hserver, hnic]

theorem nicNext_unseen {c : Call} {a : Call.Ans c}
    (h : ∀ server, serverSeen ms.name c a ≠ some (some server)) :
    nicNext ms serverID nicID .start c a = .start := by
  match hserver : serverSeen ms.name c a with
  | none => simp [nicNext, hserver]
  | some none => simp [nicNext, hserver, findPrimaryNIC, deref]
  | some (some server) => exact absurd hserver (h server)

/-- After the request queue was asked: a pending PATCH is waited for. -/
theorem readNext_asked {seen : List String} {url : String}
    {a : Call.Ans (.requestsGet .patch url)} {ri : Option RequestInfo}
    (h : matchAnswer .nic (nicURL ms serverID nicID) [] a = .val (.ok ri)) :
    readNext ms serverID nicID seen (.requestsGet .patch url) a =
      match ri.filter (·.isPending) with
      | some ri => .waits seen ri.location
      | none => .read seen := by
  match a with
  | .error e => exact nomatch h
  | .ok items =>
    have h' : matchRequest .nic (nicURL ms serverID nicID) []
      (Client.sortRequests (deref items [])) = .val (.ok ri) := h
    match ri with
    | none => simp [readNext, h']
    | some ri =>
      cases hpending : ri.isPending with
      | true => simp [readNext, h', hpending, Option.filter]
      | false => simp [readNext, h', hpending, Option.filter]

/-- How a successful run ends: it saw the IP, or it has waited. -/
def Settled (failoverIP : String) (q : NICStage) (r : Except Err Nic) : Prop :=
  ∀ nic, r = .ok nic → q = .settled (deref nic.ips []) ∨
    q = .read (deref nic.ips []) ∧ failoverIP ∈ deref nic.ips []

theorem Settled.error (q : NICStage) (e : Err) : Settled failoverIP q (.error e) :=
  fun _ heq => nomatch heq

/-- Waiting for the request the stage names. -/
theorem wp_waited {seen : List String} {location : String} {s : MachineVars}
    {Q : NICStage → Except Err Unit → MachineVars → Prop} (hfail : ∀ q e, Q q (.error e) s)
    (hdone : Q (.settled seen) (.ok ()) s) :
    (Client.waitForRequest location).wp (nicMonitor ms failoverIP serverID nicID) Q
      (.waits seen location) s := by
  refine Client.wp_waitForRequest (fun _ e => hfail _ e) fun _ =>
    ⟨fun _ _ _ _ heq => (nomatch heq), fun a _ => ?_⟩
  match a with
  | .error e => exact hfail _ _
  | .ok () =>
    have hnext : waitsNext seen location (.waitForRequest location) (.ok ()) = .settled seen :=
      if_pos rfl
    show Q (waitsNext seen location (.waitForRequest location) (.ok ())) (.ok ()) s
    rw [hnext]
    exact hdone

theorem patchNIC_spec {nic : Nic} {seen : List String} {s : MachineVars}
    {Q : NICStage → Option Err → MachineVars → Prop} (hnic : deref nic.id "" = nicID)
    (hfail : ∀ q e s', Q q (some e) s') (hdone : ∀ s', Q (.settled seen) none s') :
    (patchNIC ms serverID nic (seen ++ [failoverIP])).wp (nicMonitor ms failoverIP serverID nicID)
      Q (.read seen) s := by
  unfold patchNIC Client.patchNIC
  rw [wp_bind, hnic]
  refine Client.wp_withParams (fun p _ _ => (wp_pure _).mpr (hfail _ _ _)) ?_
  rw [wp_bind, wp_perform]
  refine ⟨?_, fun a _ => ?_⟩
  · intro dc server nic' ips heq
    obtain ⟨rfl, rfl, rfl, rfl⟩ := Call.nicsPatch.inj heq
    exact ⟨rfl, rfl, rfl, seen, rfl, rfl⟩
  rw [wp_pure]
  match hlocated : Client.located a with
  | .error e => exact (wp_pure _).mpr (hfail _ _ _)
  | .ok location =>
    obtain ⟨rfl, -⟩ := Client.located_ok hlocated
    refine (wp_bind _ _).mpr ((wp_assign _).mpr ?_)
    rw [wp_bind]
    exact wp_waited (fun q e => (wp_pure _).mpr (hfail _ _ _)) ((wp_pure _).mpr (hdone _))

theorem addFailoverIP_spec {nic : Nic} {s : MachineVars} (hnic : nic.id = some nicID) :
    (addFailoverIP ms failoverIP serverID nic).wp (nicMonitor ms failoverIP serverID nicID)
      (fun q r _ => Settled failoverIP q r) (.read (deref nic.ips [])) s := by
  have hid : deref nic.id "" = nicID := by
    rw [hnic]
    rfl
  unfold addFailoverIP getLatestNICPatchRequest
  rw [wp_bind, hid]
  refine wp_getMatchingRequest_given (fun e _ => (wp_pure _).mpr (.error _ _)) fun _ =>
    ⟨fun _ _ _ _ heq => (nomatch heq), fun a _ => ⟨trivial, fun r hr => ?_⟩⟩
  match r with
  | .error e => exact (wp_pure _).mpr (.error _ _)
  | .ok ri =>
    show Go.wp (nicMonitor ms failoverIP serverID nicID) _ _
      (readNext ms serverID nicID (deref nic.ips []) (.requestsGet .patch _) a) s
    rw [readNext_asked hr]
    dsimp only
    cases ri.filter (·.isPending) with
    | some ri =>
      -- somebody's PATCH is pending
      rw [wp_bind]
      refine wp_waited (fun q e => (wp_pure _).mpr (.error _ _)) ((wp_pure _).mpr ?_)
      intro nic' heq
      obtain rfl := Except.ok.inj heq
      exact .inl rfl
    | none =>
      rw [wp_bind]
      refine patchNIC_spec hid (fun q e s' => (wp_pure _).mpr (.error _ _)) fun s' => ?_
      refine (wp_bind _ _).mpr ((wp_assign _).mpr ((wp_pure _).mpr ?_))
      intro nic' heq
      obtain rfl := Except.ok.inj heq
      exact .inl rfl

theorem reconcileNICConfig_spec (s : MachineVars) :
    (reconcileNICConfig ms failoverIP).wp (nicMonitor ms failoverIP serverID nicID)
      (fun q r _ => Settled failoverIP q r) .start s := by
  have hseen : ∀ {c : Call} {a : Call.Ans c} {server : Server},
      serverSeen ms.name c a = some (some server) → nicIdentified ms serverID nicID c a →
      ∀ nic, findPrimaryNIC ms.name (some server) = .ok nic →
        nicNext ms serverID nicID .start c a = .read (deref nic.ips []) ∧
          server.id = some serverID ∧ nic.id = some nicID :=
    fun hserver hadm nic hnic => ⟨nicNext_seen hserver hnic, hadm _ nic hserver hnic⟩
  unfold reconcileNICConfig
  rw [wp_bind]
  refine wp_mono (wp_getServer_found (M := nicMonitor ms failoverIP serverID nicID)
    (fun q _ => q = .start) (fun q server _ => ∀ nic,
      findPrimaryNIC ms.name (some server) = .ok nic → q = .read (deref nic.ips []) ∧
        server.id = some serverID ∧ nic.id = some nicID) rfl
    (fun id _ _ server hadm => hseen rfl hadm) (fun _ _ _ _ _ heq => nomatch heq)
    (fun _ _ _ => rfl) ?_
    (fun _ _ _ _ _ _ heq => nomatch heq) ?_) ?_
  · rintro q items rfl hadm
    refine ⟨fun server hfound => hseen (serverSeen_serversGet hfound) hadm, fun hfound => ?_, trivial⟩
    have hnone : ∀ server, serverSeen ms.name (.serversGet ms.datacenterID) (.ok items) ≠
        some (some server) := by
      intro server heq
      rw [serverSeen_serversGet hfound] at heq
      exact nomatch heq
    show nicNext ms serverID nicID .start _ _ = .start
    exact nicNext_unseen hnone
  · rintro q e rfl -
    rfl
  rintro q r s' ⟨hfound, -⟩
  match r with
  | .error e => exact (wp_pure _).mpr (.error _ _)
  | .ok none => exact (wp_pure _).mpr (.error _ _)
  | .ok (some server) =>
    match hnic : findPrimaryNIC ms.name (some server) with
    | .error e =>
      dsimp only
      rw [hnic]
      exact (wp_pure _).mpr (.error _ _)
    | .ok nic =>
      obtain ⟨rfl, hserver, hid⟩ := hfound server rfl nic hnic
      dsimp only
      rw [hnic]
      dsimp only
      rw [wp_ite]
      split
      next hhas =>
        refine (wp_pure _).mpr fun nic' heq => ?_
        obtain rfl := Except.ok.inj heq
        exact .inr ⟨rfl, by simpa [nicHasIP] using hhas⟩
      next =>
        show Go.wp _ (addFailoverIP ms failoverIP (deref server.id "") nic) _ _ _
        rw [hserver]
        exact addFailoverIP_spec hid

end

/-! ## The failover IP -/

/-- After a successful `reconcileNICConfig` the IPs it saw on the NIC are there unless another
writer has removed them since. The failover IP is there if the PATCHes of the other writers that were
executed after the run's own have it. -/
theorem failover_ip_configured (ms : MachineScope) (failoverIP serverID nicID : String)
    (tr : List (Event Call Call.Ans)) (w w' : NICWorld) (s s' : MachineVars) (nic : Nic)
    (hfresh : w.Fresh)
    (hruns : Runs (reconcileNICConfig ms failoverIP) s tr (.val (.ok nic)) s')
    (hplays : (nicLive ms failoverIP serverID nicID).Plays .start w tr w') :
    (∀ ip ∈ deref nic.ips [], ip ∈ w'.ips ∨ ∃ x ∈ w'.log, x.own = false ∧ ip ∉ x.ips) ∧
    (Carried failoverIP w'.log → failoverIP ∈ w'.ips) := by
  have hstart : Known failoverIP .start w := by
    refine ⟨fun x hx => ?_, hfresh.log⟩
    rw [hfresh.log] at hx
    exact hfresh.own x (hx.resolve_right List.not_mem_nil)
  have henv : ∀ q w w', Known failoverIP q w →
      (nicLive ms failoverIP serverID nicID).env q w w' → Known failoverIP q w' := by
    intro q w w' hknown hmove
    rcases hmove with ⟨x, hx⟩ | ⟨location, ips, rfl⟩
    · exact hknown.executes hx
    · exact hknown.accept rfl
  obtain ⟨hend, hknown⟩ := Live.Plays.sound (L := nicLive ms failoverIP serverID nicID)
    (Known failoverIP)
    (fun q w c a w' hknown hok hexec => ⟨hexec.1.1, hknown.call hok hexec.1 hexec.2⟩) henv
    hplays hruns (reconcileNICConfig_spec s) hstart
  rcases hend nic rfl with hend | ⟨hend, hmem⟩
  · rw [hend] at hknown
    obtain ⟨hsent, hcurrent, hlog⟩ := hknown
    exact ⟨hcurrent.kept hsent, hcurrent.carried hsent fun h => absurd h hlog⟩
  · rw [hend] at hknown
    obtain ⟨hsent, hcurrent⟩ := hknown
    exact ⟨hcurrent.kept (hsent.sentWith (deref nic.ips [] ++ [failoverIP])),
      hcurrent.carried (hsent.sentWith _) fun _ => hmem⟩

/-! ### Runs -/

/-- The machine without a name, in a data center. -/
def nicMachine : MachineScope :=
  { (default : MachineScope) with spec := { (default : MachineSpec) with datacenterID := "dc" } }

def servedNIC : Nic := ⟨some "nic", some (nicName ""), some ["10.0.0.1"], none, none⟩

def servedServer : Server := ⟨some "server", none, some ⟨some "", none, none⟩, some [servedNIC]⟩

/-- A PATCH of the NIC that is queued. -/
def queuedPatch : Request :=
  ⟨0, [some .nic], some (nicURL nicMachine "server" "nic"), .ok none, .queued, some "request"⟩

/-- The answers where these requests are known. -/
def nicAnswers (requests : List Request) : ∀ c, Call.Ans c
  | .serversGet _ => .ok (some [servedServer])
  | .requestsGet _ _ => .ok (some requests)
  | .nicsPatch _ _ _ _ => .ok "request"
  | .waitForRequest _ => .ok ()
  | c => Call.plain c

/-- The server is shown as it is. -/
theorem servedServer_shown {w : NICWorld} (hips : w.ips = ["10.0.0.1"]) :
    nicShows nicMachine "server" "nic" w (.serversGet "dc") (.ok (some [servedServer])) := by
  have hseen : ∀ server nic, serverSeen nicMachine.name (.serversGet "dc")
      (.ok (some [servedServer])) = some (some server) →
      findPrimaryNIC nicMachine.name (some server) = .ok nic →
      server = servedServer ∧ nic = servedNIC := by
    intro server nic hserver hnic
    have hfound : serverSeen nicMachine.name (.serversGet "dc") (.ok (some [servedServer])) =
      some (some servedServer) := rfl
    rw [hfound] at hserver
    obtain rfl := Option.some.inj (Option.some.inj hserver)
    have hprimary : findPrimaryNIC nicMachine.name (some servedServer) = .ok servedNIC := rfl
    rw [hprimary] at hnic
    exact ⟨rfl, (Except.ok.inj hnic).symm⟩
  refine ⟨fun server nic hserver hnic => ?_, fun server nic hserver hnic => ?_⟩
  · obtain ⟨rfl, rfl⟩ := hseen server nic hserver hnic
    exact ⟨rfl, rfl⟩
  · obtain ⟨-, rfl⟩ := hseen server nic hserver hnic
    exact hips.symm

/-- An answer that shows no server says nothing about it. -/
theorem identified_of_unseen {ms : MachineScope} {serverID nicID : String} {c : Call}
    {a : Call.Ans c} (h : serverSeen ms.name c a = none) :
    nicIdentified ms serverID nicID c a := by
  intro server nic hserver
  rw [h] at hserver
  exact nomatch hserver

/-- The PATCH is sent, executed and waited for. Just before it, a PATCH of another writer is executed
that does not have the failover IP. -/
theorem failover_ip_configured_after_other :
    ∃ tr s' w w', NICWorld.Fresh w ∧
      Runs (reconcileNICConfig nicMachine "10.0.0.9") default tr (.val (.ok servedNIC)) s' ∧
      (nicLive nicMachine "10.0.0.9" "server" "nic").Plays .start w tr w' ∧
      (∃ x ∈ w'.log, "10.0.0.9" ∉ x.ips) ∧ Carried "10.0.0.9" w'.log ∧ "10.0.0.9" ∈ w'.ips := by
  let own : NICPatch := ⟨"request", ["10.0.0.1", "10.0.0.9"], true, false⟩
  let other : NICPatch := ⟨"other", ["10.0.0.1", "10.0.0.2"], false, false⟩
  have hruns := runs_play (reconcileNICConfig nicMachine "10.0.0.9") default (nicAnswers [])
  have hfresh : NICWorld.Fresh ⟨["10.0.0.1"], [], []⟩ := ⟨List.forall_mem_nil _, rfl⟩
  have hplays : (nicLive nicMachine "10.0.0.9" "server" "nic").Plays .start
      ⟨["10.0.0.1"], [], []⟩
      ((reconcileNICConfig nicMachine "10.0.0.9" default).play (nicAnswers [])).1
      ⟨own.ips, [{ own with executed := true }, { other with executed := true }], [own, other]⟩ := by
    refine .call ⟨servedServer_shown rfl, rfl⟩ ?_
    refine .call ⟨⟨identified_of_unseen rfl, fun _ hreq => nomatch hreq⟩, rfl⟩ ?_
    refine .env (.inr ⟨"other", other.ips, rfl⟩) ?_
    refine .call ⟨⟨identified_of_unseen rfl, fun _ _ hserver => nomatch hserver⟩, rfl⟩ ?_
    refine .env (.inl ⟨other, [own], [], rfl, rfl, rfl⟩) ?_
    refine .env (.inl ⟨own, [], [{ other with executed := true }], rfl, rfl, rfl⟩) ?_
    refine .call ⟨⟨identified_of_unseen rfl, ?_⟩, rfl⟩ .nil
    intro x hx _
    rcases List.mem_cons.mp hx with rfl | hx
    · rfl
    · obtain rfl := List.mem_singleton.mp hx
      rfl
  have hcarried : Carried "10.0.0.9" [own, other] := List.forall_mem_nil _
  exact ⟨_, _, _, _, hfresh, hruns, hplays, ⟨other, by simp, by decide⟩, hcarried,
    (failover_ip_configured _ _ _ _ _ _ _ _ _ servedNIC hfresh hruns hplays).2 hcarried⟩

/-- Another writer's PATCH is pending. The run waits for it, and is done. -/
theorem failover_ip_missing :
    ∃ tr s' w w', NICWorld.Fresh w ∧
      Runs (reconcileNICConfig nicMachine "10.0.0.9") default tr (.val (.ok servedNIC)) s' ∧
      (nicLive nicMachine "10.0.0.9" "server" "nic").Plays .start w tr w' ∧
      "10.0.0.9" ∉ w'.ips := by
  let other : NICPatch := ⟨"request", ["10.0.0.1", "10.0.0.2"], false, false⟩
  have hruns := runs_play (reconcileNICConfig nicMachine "10.0.0.9") default
    (nicAnswers [queuedPatch])
  refine ⟨_, _, ⟨["10.0.0.1"], [other], []⟩,
    ⟨other.ips, [{ other with executed := true }], [other]⟩, ⟨?_, rfl⟩, hruns, ?_, by decide⟩
  · intro x hx
    obtain rfl := List.mem_singleton.mp hx
    rfl
  refine .call ⟨servedServer_shown rfl, rfl⟩ ?_
  refine .call ⟨⟨identified_of_unseen rfl, ?_⟩, rfl⟩ ?_
  · intro req hreq _
    obtain rfl := List.mem_singleton.mp hreq
    exact ⟨other, List.mem_singleton.mpr rfl, rfl, fun _ => rfl⟩
  refine .env (.inl ⟨other, [], [], rfl, rfl, rfl⟩) ?_
  refine .call ⟨⟨identified_of_unseen rfl, ?_⟩, rfl⟩ .nil
  intro x hx _
  obtain rfl := List.mem_singleton.mp hx
  rfl

end Capic.Properties
