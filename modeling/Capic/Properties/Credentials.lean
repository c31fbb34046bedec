import Mathlib.Logic.Relation
import Capic.Controller.Util
import Capic.Data.Versions

/-!
# The credentials of several clusters

The secret with the credentials may be shared: each cluster that uses it puts a finalizer and an
owner reference of its own on it, and takes the finalizer away in the end. Both are done by reading
the secret, maybe an old version of it, and writing it back, which the API server takes only if the
version that was read is still the current one.

- `Op.edit`: what an operation makes of the secret it has read; an operation that is successful
  without an update would have changed nothing (`Op.answered`);
- `Untouched` before a cluster's first operation that is successful, `Guarded` after it: kept by the
  edits of all others (`Op.edit_untouched`, `Op.edit_guarded`);
- `Inv`: what holds along every run, by `Step.inv`;
- `credentials_guarded`: from the first `ensureSecretControlledByCluster` of a cluster that is
  successful to its `removeCredentialsFinalizer` that is, the secret has one finalizer and one owner
  reference of the cluster.

An operation is over with the answer to its last call.
-/

namespace Capic.Properties.Credentials

open Effect Effect.Go Controller Data

variable {T : Type}

/-! ## Operations -/

/-- `ensureSecretControlledByCluster` for the secret that was read, or
`removeCredentialsFinalizer`. -/
inductive Op where
  | ensure (cs : ClusterScope)
  | remove (cs : ClusterScope)

namespace Op

def cluster : Op → ClusterScope
  | ensure cs => cs
  | remove cs => cs

/-- The calls of an operation, as in `createServiceFromCluster` and at the end of
`reconcileDelete`. -/
def body : Op → Go Call Call.Ans Unit (Option Err)
  | ensure cs => do
    match ← perform (Call.getCredentials cs.ionosClusterNs cs.credentialsRef) with
    | .error e => return some e
    | .ok secret => ensureSecretControlledByCluster cs secret
  | remove cs => removeCredentialsFinalizer cs

end Op

/-- `createServiceFromCluster` makes the calls of `ensure`. -/
theorem forget_createServiceFromCluster (cs : ClusterScope) :
    ((createServiceFromCluster cs : Go Call Call.Ans Unit (Option Err)) ()).forget =
      ((Op.ensure cs).body ()).forget := by
  unfold createServiceFromCluster Op.body Prog.forget
  refine congrArg (Prog.call _) (funext fun answer => ?_)
  cases answer with
  | error e => rfl
  | ok secret =>
    dsimp only [Prog.bind, after_val, bind_def, ensureSecretControlledByCluster]
    cases cs.libs.setOwnerReference secret.ownerReferences (ownerReference cs) with
    | error e => rfl
    | ok owners =>
      dsimp only
      split
      · refine congrArg (Prog.call _) (funext fun answer => ?_)
        cases answer <;> rfl
      · rfl

/-- What an operation makes of the secret. -/
def Op.edit : Op → CredentialsSecret → CredentialsSecret
  | .ensure cs, secret =>
    { secret with
      finalizers := (cs.libs.addFinalizer secret.finalizers (credentialsFinalizer cs)).1
      ownerReferences := replaceFirst ownerKey (ownerReference cs) secret.ownerReferences }
  | .remove cs, secret =>
    { secret with
      finalizers := (cs.libs.removeFinalizer secret.finalizers (credentialsFinalizer cs)).1 }

/-- What is left of an operation once it has read the secret. -/
def Op.write (op : Op) (secret : CredentialsSecret) :
    Prog Call Call.Ans (Res (Option Err) × Unit) :=
  .call (.updateCredentials (op.edit secret)) fun answer =>
    .ret (.val (ClusterScope.errOf answer), ())

section

variable {libs : Libraries} {finalizers : List String} {f f' : String}

theorem addFinalizer_unchanged (h : ¬ (libs.addFinalizer finalizers f).2 = true) :
    (libs.addFinalizer finalizers f).1 = finalizers := by
  by_cases hmem : f ∈ finalizers
  · rw [libs.addFinalizer_of_mem hmem]
  · exact absurd (libs.addFinalizer_of_notMem hmem).2 h

theorem count_addFinalizer_of_ne (h : f ≠ f') :
    (libs.addFinalizer finalizers f').1.count f = finalizers.count f := by
  by_cases hmem : f' ∈ finalizers
  · rw [libs.addFinalizer_of_mem hmem]
  · rw [(libs.addFinalizer_of_notMem hmem).1.count_eq, List.count_cons_of_ne h.symm]

theorem count_addFinalizer_self (h : finalizers.count f ≤ 1) :
    (libs.addFinalizer finalizers f).1.count f = 1 := by
  by_cases hmem : f ∈ finalizers
  · have hpos := List.count_pos_iff.mpr hmem
    rw [libs.addFinalizer_of_mem hmem]
    show finalizers.count f = 1
    omega
  · rw [(libs.addFinalizer_of_notMem hmem).1.count_eq, List.count_cons_self,
      List.count_eq_zero_of_not_mem hmem]

theorem count_removeFinalizer_of_ne (h : f ≠ f') :
    (libs.removeFinalizer finalizers f').1.count f = finalizers.count f := by
  rw [(libs.removeFinalizer_perm _ _).count_eq]
  exact List.count_filter (by simpa using h)

theorem count_removeFinalizer_le :
    (libs.removeFinalizer finalizers f').1.count f ≤ finalizers.count f := by
  rw [(libs.removeFinalizer_perm _ _).count_eq]
  exact List.filter_sublist.count_le _

end

/-- The cluster cannot be set as an owner of the secret. -/
def OwnerFails (cs : ClusterScope) (secret : CredentialsSecret) (e : Err) : Prop :=
  cs.libs.setOwnerReference secret.ownerReferences (ownerReference cs) = .error e

/-- An owner that cannot be set is an error; else the secret is updated, unless that would change
nothing. -/
theorem ensureSecretControlledByCluster_eq (cs : ClusterScope) (secret : CredentialsSecret) :
    (∃ e, OwnerFails cs secret e ∧
        ensureSecretControlledByCluster cs secret () = .ret (.val (some e), ())) ∨
      ensureSecretControlledByCluster cs secret () = (Op.ensure cs).write secret ∨
      ensureSecretControlledByCluster cs secret () = .ret (.val none, ()) ∧
        (Op.ensure cs).edit secret = secret := by
  unfold ensureSecretControlledByCluster Op.write Op.edit
  dsimp only
  cases howners : cs.libs.setOwnerReference secret.ownerReferences (ownerReference cs) with
  | error e => exact .inl ⟨e, howners, rfl⟩
  | ok owners =>
    obtain rfl := cs.libs.setOwnerReference_ok howners
    dsimp only
    split
    next => exact .inr (.inl rfl)
    next hsame =>
      obtain ⟨hfinalizer, howner⟩ := not_or.mp hsame
      refine .inr (.inr ⟨rfl, ?_⟩)
      rw [← not_not.mp howner, addFinalizer_unchanged hfinalizer]

/-- After the secret was read it is updated, unless that would change nothing, or the operation
fails. -/
theorem Op.answered (op : Op) :
    ∃ k, op.body () = .call (.getCredentials op.cluster.ionosClusterNs op.cluster.credentialsRef) k ∧
      (∀ e, ∃ r, k (.error e) = .ret (.val r, ()) ∧ (r = none → op = .remove op.cluster)) ∧
      ∀ secret, (∃ e, OwnerFails op.cluster secret e ∧
          k (.ok secret) = .ret (.val (some e), ())) ∨ k (.ok secret) = op.write secret ∨
        (k (.ok secret) = .ret (.val none, ()) ∧ op = .ensure op.cluster ∧
          op.edit secret = secret) := by
  cases op with
  | ensure cs =>
    refine ⟨_, rfl, fun e => ⟨some e, rfl, fun h => nomatch h⟩, fun secret => ?_⟩
    exact (ensureSecretControlledByCluster_eq cs secret).imp_right
      fun h => h.imp_right fun hsame => ⟨hsame.1, rfl, hsame.2⟩
  | remove cs =>
    refine ⟨_, rfl, fun e => ?_, fun secret => .inr (.inl rfl)⟩
    by_cases hfound : e.isK8sNotFound
    · exact ⟨none, by simp [after, hfound]; rfl, fun _ => rfl⟩
    · exact ⟨some e, by simp [after, hfound]; rfl, fun _ => rfl⟩

/-! ## What is on the secret -/

/-- The clusters that share a secret. They are in one namespace, so no two of them have the same
name. -/
structure Sharing (ns name : String) (S : ClusterScope → Prop) : Prop where
  reference : ∀ cs, S cs → cs.ionosClusterNs = ns ∧ cs.credentialsRef = name
  identity : ∀ cs cs', S cs → S cs' →
    (cs.ionosClusterName = cs'.ionosClusterName ↔ cs.ionosClusterUID = cs'.ionosClusterUID)

/-- The cluster has put nothing on the secret. -/
structure Untouched (cs : ClusterScope) (secret : CredentialsSecret) : Prop where
  finalizer : secret.finalizers.count (credentialsFinalizer cs) = 0
  owner : secret.ownerReferences.count (ownerReference cs) = 0

/-- The cluster's finalizer and owner reference are on the secret, once each, and the reference is
the one `SetOwnerReference` will find. -/
structure Guarded (cs : ClusterScope) (secret : CredentialsSecret) : Prop where
  finalizer : secret.finalizers.count (credentialsFinalizer cs) = 1
  owner : secret.ownerReferences.count (ownerReference cs) = 1
  first : secret.ownerReferences.find? (fun r => ownerKey r = ownerKey (ownerReference cs)) =
    some (ownerReference cs)

section

variable {cs cs' : ClusterScope} {secret : CredentialsSecret}

theorem Untouched.not_guarded (h : Untouched cs secret) : ¬ Guarded cs secret := by
  intro hguarded
  have hone := hguarded.finalizer
  rw [h.finalizer] at hone
  exact nomatch hone

theorem credentialsFinalizer_ne (h : cs.ionosClusterUID ≠ cs'.ionosClusterUID) :
    credentialsFinalizer cs ≠ credentialsFinalizer cs' :=
  fun heq => h (String.append_right_inj _ |>.mp heq)

theorem ownerKey_ne (h : cs.ionosClusterName ≠ cs'.ionosClusterName) :
    ownerKey (ownerReference cs) ≠ ownerKey (ownerReference cs') :=
  fun heq => h (Prod.mk.inj (Prod.mk.inj heq).2).2

/-- The operations of other clusters leave alone what a cluster has on the secret, if anything. -/
theorem Op.edit_other {op : Op} (secret : CredentialsSecret)
    (hname : cs.ionosClusterName ≠ op.cluster.ionosClusterName)
    (huid : cs.ionosClusterUID ≠ op.cluster.ionosClusterUID) :
    (op.edit secret).finalizers.count (credentialsFinalizer cs) =
        secret.finalizers.count (credentialsFinalizer cs) ∧
      (op.edit secret).ownerReferences.count (ownerReference cs) =
        secret.ownerReferences.count (ownerReference cs) ∧
      (op.edit secret).ownerReferences.find?
          (fun r => ownerKey r = ownerKey (ownerReference cs)) =
        secret.ownerReferences.find? (fun r => ownerKey r = ownerKey (ownerReference cs)) := by
  cases op with
  | ensure cs' =>
    exact ⟨count_addFinalizer_of_ne (credentialsFinalizer_ne huid),
      count_replaceFirst_of_ne (ownerKey_ne hname), find?_replaceFirst_of_ne (ownerKey_ne hname)⟩
  | remove cs' => exact ⟨count_removeFinalizer_of_ne (credentialsFinalizer_ne huid), rfl, rfl⟩

/-- Two scopes of the same cluster. -/
structure Same (cs cs' : ClusterScope) : Prop where
  name : cs'.ionosClusterName = cs.ionosClusterName
  uid : cs'.ionosClusterUID = cs.ionosClusterUID

theorem Same.finalizer (h : Same cs cs') : credentialsFinalizer cs' = credentialsFinalizer cs := by
  unfold credentialsFinalizer
  rw [h.uid]

theorem Same.owner (h : Same cs cs') : ownerReference cs' = ownerReference cs := by
  unfold ownerReference
  rw [h.name, h.uid]

/-- The first `ensure` puts both on the secret. -/
theorem Untouched.ensure (h : Untouched cs secret) (hsame : Same cs cs') :
    Guarded cs ((Op.ensure cs').edit secret) := by
  dsimp only [Op.edit]
  rw [hsame.finalizer, hsame.owner]
  exact ⟨count_addFinalizer_self (h.finalizer.trans_le (Nat.zero_le 1)),
    count_replaceFirst_self h.owner, find?_replaceFirst_self⟩

/-- Another `ensure` changes nothing. -/
theorem Guarded.ensure (h : Guarded cs secret) (hsame : Same cs cs') :
    Guarded cs ((Op.ensure cs').edit secret) := by
  dsimp only [Op.edit]
  rw [hsame.finalizer, hsame.owner, replaceFirst_of_find? h.first]
  exact ⟨count_addFinalizer_self h.finalizer.le, h.owner, h.first⟩

theorem Untouched.remove (h : Untouched cs secret) (cs' : ClusterScope) :
    Untouched cs ((Op.remove cs').edit secret) where
  finalizer := Nat.le_zero.mp (count_removeFinalizer_le.trans h.finalizer.le)
  owner := h.owner

end

/-! ## Runs -/

/-- The versions of a secret. -/
def versioning : Versioning CredentialsSecret where
  version := CredentialsSecret.resourceVersion
  set n secret := { secret with resourceVersion := n }
  version_set _ _ := rfl

/-- Where a cluster is with its secret. -/
inductive Stage where
  /-- Before its first `ensure` that is successful. -/
  | fresh
  | ensured
  /-- After the first `remove` that is successful from then on. -/
  | removed
  deriving DecidableEq

/-- The secret, what is left of the operations that run, and the stage of each cluster by its
UID. -/
structure Conf (T : Type) where
  store : Store versioning
  running : T → Option (Op × Prog Call Call.Ans (Res (Option Err) × Unit))
  stage : String → Stage

/-- How the API server answers a call. An update that is answered with an error is not made. -/
def Serves (store : Store versioning) : (c : Call) → Call.Ans c → Store versioning → Prop
  | .getCredentials _ _, .ok secret, store' => store' = store ∧ store.Knows secret
  | .updateCredentials secret, .ok _, store' => store.Updates secret store'
  | _, _, store' => store' = store

/-- The stages after an operation was successful. -/
def Op.succeed (op : Op) (stage : String → Stage) : String → Stage := fun uid =>
  if uid = op.cluster.ionosClusterUID then
    match op, stage uid with
    | .ensure _, .fresh => .ensured
    | .remove _, .ensured => .removed
    | _, q => q
  else stage uid

/-- The stages after a call: an operation without a call left is over. -/
def Op.after (op : Op) (p : Prog Call Call.Ans (Res (Option Err) × Unit))
    (stage : String → Stage) : String → Stage :=
  match p with
  | .ret (.val none, _) => op.succeed stage
  | _ => stage

section

variable [DecidableEq T]

/-- One step: an operation of a cluster begins, an operation makes its next call, or the process
dies. -/
inductive Step (S : ClusterScope → Prop) : Conf T → Conf T → Prop where
  | start {c : Conf T} (t : T) (op : Op) : S op.cluster →
      (∀ op' p, c.running t = some (op', p) → p.next? = none) →
      Step S c { c with running := Function.update c.running t (some (op, op.body ())) }
  | call {c : Conf T} {t : T} {op : Op} {call : Call}
      {k : Call.Ans call → Prog Call Call.Ans (Res (Option Err) × Unit)} {store' : Store versioning}
      (hrun : c.running t = some (op, .call call k)) (answer : Call.Ans call)
      (hserves : Serves c.store call answer store') :
      Step S c ⟨store', Function.update c.running t (some (op, k answer)),
        op.after (k answer) c.stage⟩
  | crash {c : Conf T} : Step S c { c with running := fun _ => none }

/-- Nothing runs. -/
def start (store : Store versioning) : Conf T := ⟨store, fun _ => none, fun _ => .fresh⟩

/-- What an operation has left to do. -/
inductive Pending (store : Store versioning) (op : Op) :
    Prog Call Call.Ans (Res (Option Err) × Unit) → Prop where
  | reading : Pending store op (op.body ())
  | writing {secret : CredentialsSecret} : store.Knows secret → Pending store op (op.write secret)
  | done (r : Res (Option Err) × Unit) : Pending store op (.ret r)

/-- What the secret is like in each stage of a cluster. -/
def Kept (cs : ClusterScope) (store : Store versioning) : Stage → Prop
  | .fresh => ∀ secret, store.Knows secret → Untouched cs secret
  | .ensured => Guarded cs store.current
  | .removed => True

/-- What holds along every run. -/
structure Inv (S : ClusterScope → Prop) (cs : ClusterScope) (c : Conf T) : Prop where
  pending : ∀ t op p, c.running t = some (op, p) → S op.cluster ∧ Pending c.store op p
  kept : Kept cs c.store (c.stage cs.ionosClusterUID)

section

variable {ns name : String} {S : ClusterScope → Prop} {cs : ClusterScope} {op : Op}
  {store store' : Store versioning} {stage : String → Stage}

theorem Op.succeed_other (h : cs.ionosClusterUID ≠ op.cluster.ionosClusterUID) :
    op.succeed stage cs.ionosClusterUID = stage cs.ionosClusterUID := if_neg h

theorem Untouched.set (n : Nat) (secret : CredentialsSecret) (h : Untouched cs secret) :
    Untouched cs (versioning.set n secret) := ⟨h.finalizer, h.owner⟩

theorem Guarded.set (n : Nat) (secret : CredentialsSecret) (h : Guarded cs secret) :
    Guarded cs (versioning.set n secret) := ⟨h.finalizer, h.owner, h.first⟩

theorem Op.version_edit (op : Op) (secret : CredentialsSecret) :
    versioning.version (op.edit secret) = versioning.version secret := by
  cases op <;> rfl

/-- An update that is made is one of the current secret, and ends an operation successfully. -/
theorem Kept.update (hS : Sharing ns name S) (hcs : S cs) (hop : S op.cluster)
    {secret : CredentialsSecret} (hknows : store.Knows secret)
    (hupdates : store.Updates (op.edit secret) store')
    (h : Kept cs store (stage cs.ionosClusterUID)) :
    Kept cs store' (op.succeed stage cs.ionosClusterUID) := by
  obtain rfl := hupdates.of_edit hknows (op.version_edit secret)
  have hidentity := hS.identity cs op.cluster hcs hop
  by_cases huid : cs.ionosClusterUID = op.cluster.ionosClusterUID
  · -- an operation of the cluster itself
    have hsame : Same cs op.cluster := ⟨(hidentity.mpr huid).symm, huid.symm⟩
    unfold Op.succeed
    rw [if_pos huid]
    cases op with
    | ensure cs' =>
      cases hstage : stage cs.ionosClusterUID with
      | fresh =>
        rw [hstage] at h
        exact hupdates.current Guarded.set ((h _ store.knows_current).ensure hsame)
      | ensured =>
        rw [hstage] at h
        exact hupdates.current Guarded.set (Guarded.ensure h hsame)
      | removed => trivial
    | remove cs' =>
      cases hstage : stage cs.ionosClusterUID with
      | fresh =>
        rw [hstage] at h
        exact hupdates.forall_knows Untouched.set ((h _ store.knows_current).remove cs') h
      | ensured => trivial
      | removed => trivial
  · -- an operation of another cluster
    rw [Op.succeed_other huid]
    obtain ⟨hfinalizer, howner, hfirst⟩ :=
      Op.edit_other store.current (fun hname => huid (hidentity.mp hname)) huid
    cases hstage : stage cs.ionosClusterUID with
    | fresh =>
      rw [hstage] at h
      have hcurrent := h _ store.knows_current
      exact hupdates.forall_knows Untouched.set
        ⟨hfinalizer.trans hcurrent.finalizer, howner.trans hcurrent.owner⟩ h
    | ensured =>
      rw [hstage] at h
      have hcurrent : Guarded cs store.current := h
      exact hupdates.current Guarded.set
        ⟨hfinalizer.trans hcurrent.finalizer, howner.trans hcurrent.owner,
          hfirst.trans hcurrent.first⟩
    | removed => trivial

/-- A `remove` that finds no secret. -/
theorem Kept.remove (cs' : ClusterScope) (h : Kept cs store (stage cs.ionosClusterUID)) :
    Kept cs store ((Op.remove cs').succeed stage cs.ionosClusterUID) := by
  unfold Op.succeed
  split
  · cases hstage : stage cs.ionosClusterUID with
    | fresh => rwa [hstage] at h
    | ensured => trivial
    | removed => trivial
  · exact h

/-- An `ensure` that finds everything on the secret is not the cluster's first. -/
theorem Kept.skip (hS : Sharing ns name S) (hcs : S cs) {cs' : ClusterScope} (hcs' : S cs')
    {secret : CredentialsSecret} (hknows : store.Knows secret)
    (hsame : (Op.ensure cs').edit secret = secret)
    (h : Kept cs store (stage cs.ionosClusterUID)) :
    Kept cs store ((Op.ensure cs').succeed stage cs.ionosClusterUID) := by
  unfold Op.succeed
  split
  next huid =>
    have hname := (hS.identity cs cs' hcs hcs').mpr huid
    cases hstage : stage cs.ionosClusterUID with
    | fresh =>
      rw [hstage] at h
      have huntouched := h secret hknows
      have hguarded := huntouched.ensure ⟨hname.symm, huid.symm⟩
      rw [hsame] at hguarded
      exact absurd hguarded huntouched.not_guarded
    | ensured => rwa [hstage] at h
    | removed => trivial
  next => exact h

theorem Serves.knows {call : Call} {answer : Call.Ans call} {b : CredentialsSecret}
    (h : Serves store call answer store') (hb : store.Knows b) : store'.Knows b := by
  unfold Serves at h
  split at h
  · exact h.1 ▸ hb
  · exact h.knows hb
  · exact h ▸ hb

theorem Pending.mono {p : Prog Call Call.Ans (Res (Option Err) × Unit)}
    (h : Pending store op p) (hknows : ∀ b, store.Knows b → store'.Knows b) :
    Pending store' op p := by
  cases h with
  | reading => exact .reading
  | writing hb => exact .writing (hknows _ hb)
  | done r => exact .done r

/-- What a call leaves to do, and what the secret is like after it. -/
theorem Pending.call (hS : Sharing ns name S) (hcs : S cs) (hop : S op.cluster) {call : Call}
    {k : Call.Ans call → Prog Call Call.Ans (Res (Option Err) × Unit)} {answer : Call.Ans call}
    (hp : Pending store op (.call call k)) (hserves : Serves store call answer store')
    (h : Kept cs store (stage cs.ionosClusterUID)) :
    Pending store' op (k answer) ∧
      Kept cs store' (op.after (k answer) stage cs.ionosClusterUID) := by
  generalize hq : Prog.call call k = q at hp
  cases hp with
  | done r => exact nomatch hq
  | reading =>
    obtain ⟨k', hbody, herror, hok⟩ := op.answered
    rw [hbody] at hq
    cases hq
    cases answer with
    | error e =>
      obtain rfl : store' = store := hserves
      obtain ⟨r, hr, hremove⟩ := herror e
      rw [hr]
      refine ⟨.done _, ?_⟩
      cases r with
      | some e' => exact h
      | none =>
        rw [hremove rfl]
        exact h.remove _
    | ok secret =>
      obtain ⟨rfl, hknows⟩ : store' = store ∧ store.Knows secret := hserves
      rcases hok secret with ⟨e, -, hfailed⟩ | hwrite | ⟨hret, hensure, hsame⟩
      · rw [hfailed]
        exact ⟨.done _, h⟩
      · rw [hwrite]
        exact ⟨.writing hknows, h⟩
      · rw [hret]
        refine ⟨.done _, ?_⟩
        rw [hensure] at hsame ⊢
        exact h.skip hS hcs hop hknows hsame
  | @writing secret hknows =>
    cases hq
    refine ⟨.done _, ?_⟩
    cases answer with
    | error e =>
      obtain rfl : store' = store := hserves
      exact h
    | ok u => exact h.update hS hcs hop hknows hserves

end

section

variable {ns name : String} {S : ClusterScope → Prop} {cs : ClusterScope} {c c' : Conf T}
  {store : Store versioning}

/-- One operation goes on, and the others have to do what they had to do before. -/
theorem Inv.update (h : Inv S cs c) {t : T} {op : Op}
    {p : Prog Call Call.Ans (Res (Option Err) × Unit)} (hop : S op.cluster)
    (hp : Pending store op p) (hknows : ∀ b, c.store.Knows b → store.Knows b) :
    ∀ u op' p', Function.update c.running t (some (op, p)) u = some (op', p') →
      S op'.cluster ∧ Pending store op' p' := by
  intro u op' p' hu
  by_cases hut : u = t
  · subst hut
    rw [Function.update_self] at hu
    cases hu
    exact ⟨hop, hp⟩
  · rw [Function.update_of_ne hut] at hu
    obtain ⟨hop', hp'⟩ := h.pending u op' p' hu
    exact ⟨hop', hp'.mono hknows⟩

/-- A step keeps the invariant. -/
theorem Step.inv (hS : Sharing ns name S) (hcs : S cs) (hstep : Step S c c') (h : Inv S cs c) :
    Inv S cs c' := by
  cases hstep with
  | start t op hop _ => exact ⟨h.update hop .reading fun _ hb => hb, h.kept⟩
  | @call t op call k store' hrun answer hserves =>
    obtain ⟨hop, hpending⟩ := h.pending t op _ hrun
    obtain ⟨hnext, hkept⟩ := hpending.call hS hcs hop hserves h.kept
    exact ⟨h.update hop hnext fun _ => hserves.knows, hkept⟩
  | crash => exact ⟨fun _ _ _ hu => (nomatch hu), h.kept⟩

theorem run_inv (hS : Sharing ns name S) (hcs : S cs)
    (hfresh : ∀ secret, store.Knows secret → Untouched cs secret)
    (hrun : Relation.ReflTransGen (Step S) (start store) c) : Inv S cs c := by
  induction hrun with
  | refl => exact ⟨fun _ _ _ hu => (nomatch hu), hfresh⟩
  | tail _ hstep ih => exact hstep.inv hS hcs ih

/-- From the first `ensure` of a cluster that is successful to its next `remove` that is, the secret
has the cluster's finalizer and its owner reference, once each. -/
theorem credentials_guarded (hS : Sharing ns name S) (hcs : S cs)
    (hfresh : ∀ secret, store.Knows secret → Untouched cs secret)
    (hrun : Relation.ReflTransGen (Step S) (start store) c)
    (hensured : c.stage cs.ionosClusterUID = .ensured) :
    c.store.current.finalizers.count (credentialsFinalizer cs) = 1 ∧
      c.store.current.ownerReferences.count (ownerReference cs) = 1 := by
  have hkept := (run_inv hS hcs hfresh hrun).kept
  rw [hensured] at hkept
  exact ⟨hkept.finalizer, hkept.owner⟩

/-- After an operation that was not disturbed. -/
def Conf.undisturbed (c : Conf T) (op : Op)
    (running : T → Option (Op × Prog Call Call.Ans (Res (Option Err) × Unit))) : Conf T :=
  ⟨c.store.push (c.store.current.resourceVersion + 1) (op.edit c.store.current)
    (Nat.lt_succ_self _), running, op.succeed c.stage⟩

/-- An operation that is not disturbed, can set its owner and has something to change is
successful. -/
theorem steps_succeed (t : T) (op : Op) (hop : S op.cluster) (hidle : c.running t = none)
    (howner : ∀ e, ¬ OwnerFails op.cluster c.store.current e)
    (hchanges : op.edit c.store.current ≠ c.store.current) :
    ∃ running, Relation.ReflTransGen (Step S) c (c.undisturbed op running) ∧
      ∀ u, u ≠ t → running u = c.running u := by
  obtain ⟨k, hbody, -, hok⟩ := op.answered
  have hwrite : k (.ok c.store.current) = op.write c.store.current := by
    rcases hok c.store.current with ⟨e, hfailed, -⟩ | hwrite | hskip
    · exact absurd hfailed (howner e)
    · exact hwrite
    · exact absurd hskip.2.2 hchanges
  -- the three steps: begin, read the current version, write
  have hstart : Step S c ⟨c.store, Function.update c.running t (some (op, op.body ())), c.stage⟩ :=
    .start t op hop fun op' p hp => nomatch hidle.symm.trans hp
  have hread : Step S ⟨c.store, Function.update c.running t (some (op, op.body ())), c.stage⟩
      ⟨c.store, Function.update c.running t (some (op, op.write c.store.current)), c.stage⟩ := by
    have hrun : Function.update c.running t (some (op, op.body ())) t = some (op, .call _ k) := by
      rw [Function.update_self, hbody]
    have hcall := Step.call (S := S)
      (c := ⟨c.store, Function.update c.running t (some (op, op.body ())), c.stage⟩)
      hrun (.ok c.store.current) ⟨rfl, .inl rfl⟩
    rwa [hwrite, Function.update_idem] at hcall
  have hupdates := Store.Updates.next (c.store.current.resourceVersion + 1) (Nat.lt_succ_self _)
    (op.version_edit c.store.current)
  have hupdate := Step.call (S := S)
    (c := ⟨c.store, Function.update c.running t (some (op, op.write c.store.current)), c.stage⟩)
    (Function.update_self ..) (.ok ()) hupdates
  rw [Function.update_idem] at hupdate
  refine ⟨_, ((Relation.ReflTransGen.single hstart).tail hread).tail hupdate, fun u hu => ?_⟩
  exact Function.update_of_ne hu ..

end

end

/-- A cluster that uses the secret `secret`. -/
def user (name : String) : ClusterScope :=
  { (default : ClusterScope) with
    ionosClusterNs := "ns", credentialsRef := "secret"
    ionosClusterName := name, ionosClusterUID := name }

theorem sharing_user : Sharing "ns" "secret" fun cs => ∃ name, cs = user name where
  reference := by
    rintro cs ⟨name, rfl⟩
    exact ⟨rfl, rfl⟩
  identity := by
    rintro cs cs' ⟨name, rfl⟩ ⟨name', rfl⟩
    exact Iff.rfl

/-- A secret that no cluster has used yet. -/
def unused : Store versioning := ⟨⟨"ns", "secret", 1, [], [], "token", ""⟩, [], fun _ h => nomatch h⟩

/-- A second cluster begins to use the secret and ends it; the first is still protected. -/
theorem credentials_guarded_shared :
    ∃ c : Conf Nat,
      Relation.ReflTransGen (Step fun cs => ∃ name, cs = user name) (start unused) c ∧
      c.stage "first" = .ensured ∧ c.stage "second" = .removed ∧
      c.store.current.finalizers.count (credentialsFinalizer (user "first")) = 1 ∧
      c.store.current.ownerReferences.count (ownerReference (user "first")) = 1 := by
  have hchanges₂ : (Op.ensure (user "second")).edit (versioning.set 2
      ((Op.ensure (user "first")).edit unused.current)) ≠ versioning.set 2
      ((Op.ensure (user "first")).edit unused.current) := by decide
  have hchanges₃ : (Op.remove (user "second")).edit (versioning.set 3
      ((Op.ensure (user "second")).edit (versioning.set 2
        ((Op.ensure (user "first")).edit unused.current)))) ≠ versioning.set 3
      ((Op.ensure (user "second")).edit (versioning.set 2
        ((Op.ensure (user "first")).edit unused.current))) := by decide
  obtain ⟨running₁, hrun₁, hidle₁⟩ := steps_succeed (S := fun cs => ∃ name, cs = user name)
    (c := start unused) 1 (.ensure (user "first")) ⟨_, rfl⟩ rfl (fun _ h => nomatch h) (by decide)
  obtain ⟨running₂, hrun₂, hidle₂⟩ := steps_succeed (S := fun cs => ∃ name, cs = user name)
    (c := (start unused).undisturbed (.ensure (user "first")) running₁) 2
    (.ensure (user "second")) ⟨_, rfl⟩ (hidle₁ 2 (by decide)) (fun _ h => nomatch h) hchanges₂
  obtain ⟨running₃, hrun₃, -⟩ := steps_succeed (S := fun cs => ∃ name, cs = user name)
    (c := ((start unused).undisturbed (.ensure (user "first")) running₁).undisturbed
      (.ensure (user "second")) running₂) 3 (.remove (user "second")) ⟨_, rfl⟩
    ((hidle₂ 3 (by decide)).trans (hidle₁ 3 (by decide))) (fun _ h => nomatch h) hchanges₃
  have hrun := (hrun₁.trans hrun₂).trans hrun₃
  have hfresh : ∀ secret, unused.Knows secret → Untouched (user "first") secret := by
    intro secret hknows
    rcases hknows with rfl | hold
    · exact ⟨rfl, rfl⟩
    · exact nomatch hold
  exact ⟨_, hrun, rfl, rfl, credentials_guarded sharing_user ⟨_, rfl⟩ hfresh hrun rfl⟩

end Capic.Properties.Credentials
