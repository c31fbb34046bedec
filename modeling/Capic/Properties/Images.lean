import Mathlib.Data.Set.Insert
import Capic.Cloud.Image
import Capic.Data.Version

/-!
# Image lookup

`lookupImageID` gets the labels of all resources as one flat list, groups them by image in a map,
ranges over that map in an order of Go's choosing, asks for each image that has the labels and then
filters by location and by name. What comes out is a list of IDs without repetition that has exactly
the images that match, in no particular order (`lookupImageID_found`).

- `image_lookup_resolves`: the two resolution policies make of that list what they promise.
- `image_has_version`: the version is looked for as a part of the name, so the image that is picked
  is for the machine's version unless the name goes on with another digit.
-/

namespace Capic.Properties

open Effect Effect.Go Cloud

/-! ## What the API knows -/

/-- The labels, an image for each ID, and where the data center is. -/
structure Catalog where
  labels : List Label
  image : String → Image
  image_id : ∀ id, (image id).id = some id
  location : String

/-- The order in which Go ranges over a map is one of these. -/
def Ordered (orders : List String → Prop) : (call : Call) → call.Ans → Prop
  | .mapOrder _, order => orders order.1
  | _, _ => True

namespace Catalog

variable (c : Catalog)

/-- The call gets what there is, or it fails if calls may. -/
def Answers (mayFail : Prop) : (call : Call) → call.Ans → Prop
  | .labelsGet, .ok labels => labels = some c.labels
  | .imagesFindById id, .ok image => image = c.image id
  | .datacentersFindById _, .ok location => location = some c.location
  | .labelsGet, .error _ | .imagesFindById _, .error _ | .datacentersFindById _, .error _ => mayFail
  | _, _ => True

abbrev monitor (mayFail : Prop) (orders : List String → Prop) : Monitor Call Call.Ans where
  Phase := Unit
  ok _ _ := True
  adm _ call answer := c.Answers mayFail call answer ∧ Ordered orders call answer
  next _ _ _ := ()
  panic _ := False

/-- The location of the data center, as the scope knows it already, or else as the API tells. -/
def locationFor (v : MachineVars) : String := if v.location = "" then c.location else v.location

/-- The images in the label map. -/
def imageIDs : List String := (imageLabelMap c.labels).map (·.1)

/-- The image has the labels in the map, is in the location and has the version in its name, unless
the version does not matter. -/
def Fits (selector : ImageSelector) (machineVersion location id : String) : Prop :=
  mapContains (deref ((imageLabelMap c.labels).lookup id) []) selector.matchLabels = true ∧
    deref (c.image id).location "" = location ∧
    (deref selector.useMachineVersion true = true →
      Text.contains (deref (c.image id).name "") machineVersion = true)

instance (selector : ImageSelector) (machineVersion location id : String) :
    Decidable (c.Fits selector machineVersion location id) :=
  inferInstanceAs (Decidable (_ ∧ _ ∧ (_ → _)))

/-- The images that the lookup finds. -/
def selected (selector : ImageSelector) (machineVersion location : String) : Set String :=
  { id | id ∈ c.imageIDs ∧ c.Fits selector machineVersion location id }

theorem exists_answer (mayFail : Prop) {orders : List String → Prop}
    (horders : ∀ keys : List String, ∃ order, order.Perm keys ∧ orders order)
    (q : (c.monitor mayFail orders).Phase) (call : Call) :
    ∃ a, (c.monitor mayFail orders).adm q call a := by
  cases call with
  | labelsGet => exact ⟨.ok (some c.labels), rfl, trivial⟩
  | imagesFindById id => exact ⟨.ok (c.image id), rfl, trivial⟩
  | datacentersFindById dc => exact ⟨.ok (some c.location), rfl, trivial⟩
  | mapOrder keys =>
    obtain ⟨order, hperm, horder⟩ := horders keys
    exact ⟨⟨order, hperm⟩, trivial, horder⟩
  | _ => exact ⟨Call.plain _, trivial, trivial⟩

variable {c} in
theorem Answers.mayFail {call : Call} {answer : call.Ans} (h : c.Answers False call answer) :
    c.Answers True call answer := by
  unfold Answers at h ⊢
  split <;> simp_all

variable {c} in
theorem admits_iff {mayFail : Prop} {orders : List String → Prop}
    {tr : List (Event Call Call.Ans)} :
    (c.monitor mayFail orders).Admits () tr ↔
      ∀ e ∈ tr, c.Answers mayFail e.call e.answer ∧ Ordered orders e.call e.answer := by
  induction tr with
  | nil => simp [Monitor.Admits]
  | cons e tr ih =>
    rw [List.forall_mem_cons, ← ih]
    exact Iff.rfl

variable {c} in
theorem admits_any {mayFail : Prop} {tr : List (Event Call Call.Ans)}
    (h : ∀ e ∈ tr, c.Answers mayFail e.call e.answer) :
    (c.monitor mayFail fun _ => True).Admits () tr := by
  refine admits_iff.mpr fun e he => ⟨h e he, ?_⟩
  obtain ⟨call, answer⟩ := e
  cases call <;> trivial

end Catalog

/-! ## The list of images -/

section

variable {c : Catalog} {mayFail : Prop} {orders : List String → Prop} {selector : ImageSelector}
  {ms : MachineScope} {v : MachineVars}

theorem getLocation_catalog (hdc : v.location = "" → ms.datacenterID = "" → mayFail) :
    (getLocation ms).wp (c.monitor mayFail orders)
      (fun _ r _ => (v.location = "" → ms.datacenterID ≠ "") ∧ r = .ok (c.locationFor v) ∨
        mayFail ∧ ∃ e, r = .error e) () v := by
  unfold getLocation
  rw [wp_bind, wp_vars]
  dsimp only
  rw [wp_ite]
  split
  next hempty =>
    unfold Client.getDatacenterLocationByID
    rw [wp_bind]
    refine Client.wp_withParams_given (fun p hp hp' => ?_) fun hgiven => ?_
    · obtain rfl := List.mem_singleton.mp hp
      exact (wp_pure _).mpr (.inr ⟨hdc hempty hp', _, rfl⟩)
    · rw [wp_bind, wp_perform]
      refine ⟨trivial, fun a ha => ?_⟩
      match a, ha.1 with
      | .error e, hfail => exact (wp_pure _).mpr ((wp_pure _).mpr (.inr ⟨hfail, _, rfl⟩))
      | .ok location, hlocation =>
        obtain rfl : location = some c.location := hlocation
        refine (wp_pure _).mpr ?_
        dsimp only
        rw [wp_bind, wp_assign, wp_pure, Catalog.locationFor, if_pos hempty]
        exact .inl ⟨fun _ => hgiven _ (List.mem_singleton.mpr rfl), rfl⟩
  next hknown =>
    refine (wp_pure _).mpr (.inl ⟨fun h => absurd h hknown, ?_⟩)
    rw [Catalog.locationFor, if_neg hknown]

/-- The images come in the order of the IDs, without those elsewhere. -/
theorem getImages_catalog {σ : Type} {s : σ} (location : String) (ids : List String) :
    (getImages location ids).wp (c.monitor mayFail orders) (fun _ r _ =>
      r = .ok ((ids.filter fun id => deref (c.image id).location "" = location).map c.image) ∨
        mayFail ∧ ∃ e, r = .error e) () s := by
  induction ids with
  | nil => exact (wp_pure _).mpr (.inl rfl)
  | cons id ids ih =>
    unfold getImages Client.getImage
    rw [wp_bind, wp_bind, wp_perform]
    refine ⟨trivial, fun a ha => (wp_pure _).mpr ?_⟩
    match a, ha.1 with
    | .error e, hfail => exact (wp_pure _).mpr (.inr ⟨hfail, _, rfl⟩)
    | .ok image, himage =>
      obtain rfl : image = c.image id := himage
      dsimp only [Client.answered]
      rw [wp_bind]
      refine wp_mono ih fun _ r s' hr => ?_
      rcases hr with rfl | ⟨hfail, e, rfl⟩
      · dsimp only
        rw [wp_ite, List.filter_cons]
        split
        next hin => simp [hin, wp_pure]
        next hout => simp [hout, wp_pure]
      · exact (wp_pure _).mpr (.inr ⟨hfail, e, rfl⟩)

/-- The images with the labels, in the order of the map. -/
theorem lookupImagesBySelector_catalog {σ : Type} {s : σ} (location : String) :
    (lookupImagesBySelector location (some selector)).wp (c.monitor mayFail orders) (fun _ r _ =>
      (∃ order : List String, order.Perm c.imageIDs ∧ orders order ∧
        r = .ok (((order.filter fun id =>
            mapContains (deref ((imageLabelMap c.labels).lookup id) []) selector.matchLabels).filter
          fun id => deref (c.image id).location "" = location).map c.image)) ∨
        mayFail ∧ ∃ e, r = .error e) () s := by
  unfold lookupImagesBySelector Client.listLabels
  rw [wp_bind, wp_bind, wp_perform]
  refine ⟨trivial, fun a ha => ?_⟩
  match a, ha.1 with
  | .error e, hfail => exact (wp_pure _).mpr ((wp_pure _).mpr (.inr ⟨hfail, _, rfl⟩))
  | .ok labels, hlabels =>
    obtain rfl : labels = some c.labels := hlabels
    refine (wp_pure _).mpr ?_
    dsimp only
    rw [wp_bind, wp_perform]
    refine ⟨trivial, fun order horder => ?_⟩
    refine wp_mono (getImages_catalog location _) fun _ r _ hr => ?_
    exact hr.imp_left fun hr => ⟨order.1, order.2, horder.2, hr⟩

/-- The version filter, on IDs, makes the filters complete. -/
theorem foundImages_catalog (selector : ImageSelector) (machineVersion location : String)
    (order : List String) :
    foundImages machineVersion selector (((order.filter fun id =>
        mapContains (deref ((imageLabelMap c.labels).lookup id) []) selector.matchLabels).filter
      fun id => deref (c.image id).location "" = location).map c.image) =
      (order.filter fun id => c.Fits selector machineVersion location id).map c.image := by
  unfold foundImages filterImagesByName Catalog.Fits
  split
  next huse =>
    rw [List.filter_map, List.filter_filter, List.filter_filter]
    congr 2
    funext id
    simp [huse, Bool.and_comm, Bool.decide_and]
  next huse =>
    rw [List.filter_filter]
    congr 2
    funext id
    simp [huse, Bool.and_comm, Bool.decide_and]

end

/-! ## What the policies make of it -/

/-- An `imageMatchError`. -/
def ImageMismatch (r : Except Err String) : Prop :=
  ∃ ids labels location version labelMatches,
    r = .error (.imageMatch ids labels location version labelMatches)

/-- The result is what the policy promises for these images. -/
structure Catalog.Resolves (c : Catalog) (policy : ResolutionPolicy) (matching : Set String)
    (r : Except Err String) : Prop where
  exact_one : policy = .exact → ∀ id, matching = {id} → r = .ok id
  exact_otherwise : policy = .exact → (¬∃ id, matching = {id}) → ImageMismatch r
  newest_some : policy = .newest → matching.Nonempty → ∃ id ∈ matching, r = .ok id ∧
    ∀ id' ∈ matching, (c.image id').createdDate ≤ (c.image id).createdDate
  newest_none : policy = .newest → (ImageMismatch r ↔ matching = ∅)

section

variable {c : Catalog} {found : List String} {mismatch : List String → Err}

theorem Catalog.deref_id (c : Catalog) (id : String) : deref (c.image id).id "" = id := by
  rw [c.image_id]
  rfl

/-- `Exact`, on images that are each listed once. -/
theorem pickImage_exact_resolves (hnodup : found.Nodup)
    (hmismatch : ∀ ids, ImageMismatch (.error (mismatch ids))) :
    ∃ r, pickImage .exact mismatch (found.map c.image) = .val r ∧
      c.Resolves .exact { id | id ∈ found } r := by
  match found with
  | [] =>
    refine ⟨.error (mismatch []), rfl, fun _ id hone => ?_, fun _ _ => hmismatch [], nofun, nofun⟩
    have hmem : id ∈ { id | id ∈ ([] : List String) } := hone ▸ rfl
    exact nomatch hmem
  | [id] =>
    have hone : { id' | id' ∈ [id] } = ({id} : Set String) := by
      ext id'
      simp
    refine ⟨.ok id, ?_, fun _ id' hone' => ?_, fun _ hnone => absurd ⟨id, hone⟩ hnone, nofun, nofun⟩
    · exact congrArg (fun i => Res.val (Except.ok i)) (c.deref_id id)
    · rw [Set.singleton_injective (hone.symm.trans hone')]
  | id₁ :: id₂ :: rest =>
    have hids : ∀ i ∈ c.image id₁ :: c.image id₂ :: rest.map c.image, i.id ≠ none := by
      intro i hi
      obtain ⟨id, -, rfl⟩ := List.mem_map.mp (show i ∈ (id₁ :: id₂ :: rest).map c.image from hi)
      simp [c.image_id]
    obtain ⟨ids, hpick⟩ := pickImage_many mismatch hids
    refine ⟨.error (mismatch ids), hpick, fun _ id hone => ?_, fun _ _ => hmismatch ids, nofun, nofun⟩
    -- the two are different, so there is no single one
    have h₁ : id₁ = id := hone.subset List.mem_cons_self
    have h₂ : id₂ = id := hone.subset (List.mem_cons_of_mem _ List.mem_cons_self)
    simp [h₁, h₂] at hnodup

/-- `Newest`, likewise. -/
theorem pickImage_newest_resolves (hmismatch : ∀ ids, ImageMismatch (.error (mismatch ids))) :
    ∃ r, pickImage .newest mismatch (found.map c.image) = .val r ∧
      c.Resolves .newest { id | id ∈ found } r := by
  by_cases hnil : found = []
  · subst hnil
    have hnone : { id | id ∈ ([] : List String) } = (∅ : Set String) := by simp
    exact ⟨.error (mismatch []), rfl, nofun, nofun, fun _ hsome => absurd hnone hsome.ne_empty,
      fun _ => iff_of_true (hmismatch []) hnone⟩
  · obtain ⟨image, hmem, hlatest, hpick⟩ :=
      pickImage_newest mismatch (mt List.map_eq_nil_iff.mp hnil)
    obtain ⟨id, hid, rfl⟩ := List.mem_map.mp hmem
    rw [c.deref_id] at hpick
    refine ⟨.ok id, hpick, nofun, nofun, fun _ _ => ⟨id, hid, rfl, fun id' hid' => ?_⟩, fun _ => ?_⟩
    · exact hlatest _ (List.mem_map_of_mem hid')
    · refine iff_of_false (fun h => ?_) (Set.nonempty_iff_ne_empty.mp ⟨id, hid⟩)
      obtain ⟨_, _, _, _, _, h⟩ := h
      exact nomatch h

/-- Either policy, and a policy that is neither, on which nothing is promised. -/
theorem pickImage_resolves (policy : ResolutionPolicy) (hnodup : found.Nodup)
    (hmismatch : ∀ ids, ImageMismatch (.error (mismatch ids))) :
    ∃ r, pickImage policy mismatch (found.map c.image) = .val r ∧
      c.Resolves policy { id | id ∈ found } r := by
  cases policy with
  | exact => exact pickImage_exact_resolves hnodup hmismatch
  | newest => exact pickImage_newest_resolves hmismatch
  | other text =>
    cases found with
    | nil => exact ⟨_, rfl, nofun, nofun, nofun, nofun⟩
    | cons id found => exact ⟨_, rfl, nofun, nofun, nofun, nofun⟩

end

/-! ## The lookup -/

section

variable {c : Catalog} {mayFail : Prop} {orders : List String → Prop} {selector : ImageSelector}
  {ms : MachineScope} {v : MachineVars}

/-- The images that fit, in the order of the map. -/
def Catalog.found (c : Catalog) (selector : ImageSelector) (machineVersion location : String)
    (order : List String) : List String :=
  order.filter fun id => c.Fits selector machineVersion location id

theorem Catalog.mem_found {c : Catalog} {selector : ImageSelector} {machineVersion location : String}
    {order : List String} (hperm : order.Perm c.imageIDs) :
    { id | id ∈ c.found selector machineVersion location order } =
      c.selected selector machineVersion location := by
  ext id
  simp [Catalog.found, Catalog.selected, hperm.mem_iff]

/-- The lookup picks one of them. -/
theorem lookupImageID_found (c : Catalog) (orders : List String → Prop)
    (himage : ms.spec.disk.image = ⟨"", some selector⟩)
    (hversion : deref selector.useMachineVersion true = true → ms.version ≠ "")
    (hdc : v.location = "" → ms.datacenterID = "" → mayFail) :
    (lookupImageID ms).wp (c.monitor mayFail orders) (fun _ r _ =>
      ((v.location = "" → ms.datacenterID ≠ "") ∧ ∃ order, order.Perm c.imageIDs ∧ orders order ∧
        c.Resolves selector.resolutionPolicy (c.selected selector ms.version (c.locationFor v)) r ∧
        ∃ mismatch, pickImage selector.resolutionPolicy mismatch
          ((c.found selector ms.version (c.locationFor v) order).map c.image) = .val r) ∨
        mayFail ∧ ∃ e, r = .error e) () v := by
  unfold lookupImageID
  rw [himage, wp_ite, if_neg (not_not_intro rfl), wp_bind]
  refine wp_mono (getLocation_catalog hdc) fun _ r v₁ hr => ?_
  rcases hr with ⟨hknown, rfl⟩ | ⟨hfail, e, rfl⟩
  · dsimp only
    unfold imageAt
    rw [himage, wp_bind]
    refine wp_mono (lookupImagesBySelector_catalog (c.locationFor v)) fun _ r v₂ hr => ?_
    rcases hr with ⟨order, hperm, horder, rfl⟩ | ⟨hfail, e, rfl⟩
    · dsimp only
      rw [wp_conclude_iff]
      obtain ⟨version, heq⟩ := resolveImage_eq (c.locationFor v) _ hversion
      rw [heq, foundImages_catalog]
      have hnodup : order.Nodup := hperm.nodup_iff.mpr (nodup_imageLabelMap c.labels)
      obtain ⟨r, hpick, hresolves⟩ := pickImage_resolves selector.resolutionPolicy
        (hnodup.filter _) fun ids => ⟨ids, _, _, _, _, rfl⟩
      rw [hpick]
      refine .inl ⟨hknown, order, hperm, horder, ?_, _, hpick⟩
      rw [← Catalog.mem_found hperm]
      exact hresolves
    · exact (wp_pure _).mpr (.inr ⟨hfail, e, rfl⟩)
  · exact (wp_pure _).mpr (.inr ⟨hfail, e, rfl⟩)

/-- If no call fails, the lookup keeps the promise. -/
theorem lookupImageID_resolves (c : Catalog) (orders : List String → Prop)
    (himage : ms.spec.disk.image = ⟨"", some selector⟩)
    (hversion : deref selector.useMachineVersion true = true → ms.version ≠ "")
    (hdc : v.location = "" → ms.datacenterID ≠ "") :
    (lookupImageID ms).wp (c.monitor False orders) (fun _ r _ =>
      c.Resolves selector.resolutionPolicy (c.selected selector ms.version (c.locationFor v)) r)
      () v := by
  refine wp_mono (lookupImageID_found c orders himage hversion fun h h' => hdc h h') fun _ r _ hr => ?_
  rcases hr with ⟨_, _, _, _, hresolves, _⟩ | ⟨hfail, _⟩
  · exact hresolves
  · exact hfail.elim

end

/-! ## Labels -/

namespace Catalog

variable (c : Catalog)

/-- The image has the label. -/
def Carries (id key value : String) : Prop :=
  ∃ label ∈ c.labels, labelsImage label id key ∧ deref label.value "" = value

/-- The images that carry all the labels, lie in the location and, unless the version does not
matter, have it in their name. -/
def matching (selector : ImageSelector) (machineVersion location : String) : Set String :=
  { id | (∀ kv ∈ selector.matchLabels, c.Carries id kv.1 kv.2) ∧
    deref (c.image id).location "" = location ∧
    (deref selector.useMachineVersion true = true →
      machineVersion.toList <:+: (deref (c.image id).name "").toList) }

/-- With labels to match, and with one label for an image and a key, these are the images that the
lookup finds. -/
theorem selected_eq_matching {selector : ImageSelector} (hunique : LabelsUnique c.labels)
    (hlabels : selector.matchLabels ≠ []) (machineVersion location : String) :
    c.selected selector machineVersion location = c.matching selector machineVersion location := by
  ext id
  have hcarries : (∀ kv ∈ selector.matchLabels,
      imageLabel (imageLabelMap c.labels) id kv.1 = some kv.2) ↔
      ∀ kv ∈ selector.matchLabels, c.Carries id kv.1 kv.2 :=
    forall₂_congr fun kv _ => imageLabel_imageLabelMap hunique
  -- there is a label to match, so an image that does is in the map
  have hkey : (∀ kv ∈ selector.matchLabels,
      imageLabel (imageLabelMap c.labels) id kv.1 = some kv.2) → id ∈ c.imageIDs := by
    intro hall
    obtain ⟨kv, hkv⟩ := List.exists_mem_of_ne_nil _ hlabels
    exact mem_keys_of_imageLabel (hall kv hkv)
  simp only [selected, matching, Fits, mapContains_iff, Text.contains_iff, Set.mem_ofPred_eq,
    ← hcarries]
  exact ⟨fun h => h.2, fun h => ⟨hkey h.1, h⟩⟩

end Catalog

/-- Whatever the order of the labels and of the map, the result is what the policy promises: under
`Exact` the only image that matches, and an error if there are none or several; under `Newest` one
of the latest that match, and an error only if there are none. -/
theorem image_lookup_resolves (c : Catalog) (hunique : LabelsUnique c.labels) (ms : MachineScope)
    (v : MachineVars) (selector : ImageSelector)
    (himage : ms.spec.disk.image = ⟨"", some selector⟩) (hlabels : selector.matchLabels ≠ [])
    (hversion : deref selector.useMachineVersion true = true → ms.version ≠ "")
    (hdc : v.location = "" → ms.datacenterID ≠ "") :
    (∃ tr r v', Runs (lookupImageID ms) v tr r v' ∧ ∀ e ∈ tr, c.Answers False e.call e.answer) ∧
    ∀ tr r v', Runs (lookupImageID ms) v tr r v' → (∀ e ∈ tr, c.Answers False e.call e.answer) →
      ∃ result, r = .val result ∧ c.Resolves selector.resolutionPolicy
        (c.matching selector ms.version (c.locationFor v)) result := by
  rw [← c.selected_eq_matching hunique hlabels]
  constructor
  · have horders : ∀ keys : List String, ∃ order : List String, order.Perm keys ∧ True :=
      fun keys => ⟨keys, .refl _, trivial⟩
    obtain ⟨tr, r, v', hrun, hadmits⟩ :=
      exists_run (c.exists_answer False horders) (lookupImageID ms) () v
    exact ⟨tr, r, v', hrun, fun e he => (Catalog.admits_iff.mp hadmits e he).1⟩
  · intro tr r v' hrun hanswers
    have hspec := lookupImageID_resolves c (fun _ => True) himage hversion hdc
    have hadmits := Catalog.admits_any hanswers
    cases r with
    | val result => exact ⟨result, rfl, wp_runs hspec hrun hadmits⟩
    | panic msg => exact (wp_runs_panic hspec hrun hadmits).elim

/-! ### Two images -/

/-- Two images with the same label, the second one newer. -/
def twoImages (name₁ name₂ : String) : Catalog where
  labels := [⟨some "image", some "1", some "os", some "linux"⟩,
    ⟨some "image", some "2", some "os", some "linux"⟩]
  image id := ⟨some id, some (if id = "2" then name₂ else name₁), some "de/fra",
    if id = "2" then 2 else 1⟩
  image_id _ := rfl
  location := "de/fra"

/-- A machine that takes the newest image with the label and with its version. -/
def choosingMachine (version : String) : MachineScope :=
  { (default : MachineScope) with
    version := version
    spec := { (default : MachineSpec) with
      datacenterID := "dc"
      disk := { (default : Volume) with image := ⟨"", some ⟨[("os", "linux")], .newest, none⟩⟩ } } }

theorem twoImages_unique (name₁ name₂ : String) : LabelsUnique (twoImages name₁ name₂).labels := by
  refine .cons (fun label hlabel id key h₁ h₂ => ?_) (List.pairwise_singleton _ _)
  obtain rfl := List.mem_singleton.mp hlabel
  exact absurd (h₁.2.1.trans h₂.2.1.symm) (by decide)

/-- Both are for the machine's version, and the newer one is taken. -/
theorem image_lookup_resolves_newest :
    ∃ tr v', Runs (lookupImageID (choosingMachine "v1.30.1")) default tr (.val (.ok "2")) v' ∧
      ∀ e ∈ tr,
        (twoImages "node-v1.30.1" "node-v1.30.1").Answers False e.call e.answer := by
  let c := twoImages "node-v1.30.1" "node-v1.30.1"
  obtain ⟨⟨tr, r, v', hrun, hanswers⟩, hall⟩ := image_lookup_resolves c (twoImages_unique _ _)
    (choosingMachine "v1.30.1") default _ rfl (by decide) (by decide) (by decide)
  obtain ⟨result, rfl, hresolves⟩ := hall tr r v' hrun hanswers
  have hsecond : "2" ∈ c.matching ⟨[("os", "linux")], .newest, none⟩ "v1.30.1" "de/fra" := by
    refine ⟨fun kv hkv => ?_, rfl, fun _ => Text.contains_iff.mp (by decide)⟩
    obtain rfl := List.mem_singleton.mp hkv
    exact ⟨_, List.mem_cons_of_mem _ List.mem_cons_self, ⟨rfl, rfl, rfl⟩, rfl⟩
  obtain ⟨id, -, rfl, hlatest⟩ := hresolves.newest_some rfl ⟨"2", hsecond⟩
  suffices heq : id = "2" from ⟨tr, v', heq ▸ hrun, hanswers⟩
  by_contra hid
  have hdate : (2 : Int) ≤ if id = "2" then 2 else 1 := hlatest "2" hsecond
  rw [if_neg hid] at hdate
  omega

/-! ## The version in the name -/

/-- The images that the policy can end up with. -/
def Catalog.pickable (c : Catalog) (policy : ResolutionPolicy) (matching : Set String) : Set String :=
  match policy with
  | .exact => { id | matching = {id} }
  | .newest => { id ∈ matching | ∀ id' ∈ matching,
      (c.image id').createdDate ≤ (c.image id).createdDate }
  | .other _ => matching

section

variable {c : Catalog} {policy : ResolutionPolicy} {matching : Set String} {id : String}

theorem Catalog.Resolves.mem_pickable (h : c.Resolves policy matching (.ok id))
    (hpolicy : policy = .exact ∨ policy = .newest) : id ∈ c.pickable policy matching := by
  have hok : ¬ImageMismatch (.ok id) := by
    intro hmismatch
    obtain ⟨_, _, _, _, _, hmismatch⟩ := hmismatch
    exact nomatch hmismatch
  rcases hpolicy with rfl | rfl
  · by_cases hone : ∃ id', matching = {id'}
    · obtain ⟨id', hone⟩ := hone
      obtain rfl := Except.ok.inj (h.exact_one rfl id' hone)
      exact hone
    · exact absurd (h.exact_otherwise rfl hone) hok
  · have hsome : matching.Nonempty := by
      rw [Set.nonempty_iff_ne_empty]
      exact mt (h.newest_none rfl).mpr hok
    obtain ⟨id', hid, heq, hlatest⟩ := h.newest_some rfl hsome
    obtain rfl := Except.ok.inj heq
    exact ⟨hid, hlatest⟩

theorem Catalog.pickable_subset (hpolicy : policy = .exact ∨ policy = .newest)
    (h : id ∈ c.pickable policy matching) : id ∈ matching := by
  rcases hpolicy with rfl | rfl
  · have hone : matching = {id} := h
    exact hone ▸ rfl
  · exact h.1

variable {selector : ImageSelector} {ms : MachineScope} {v : MachineVars}

/-- Go may range over the images with this one first, and then it is picked. -/
theorem lookupImageID_can_pick (himage : ms.spec.disk.image = ⟨"", some selector⟩)
    (hpolicy : selector.resolutionPolicy = .exact ∨ selector.resolutionPolicy = .newest)
    (hversion : deref selector.useMachineVersion true = true → ms.version ≠ "")
    (hdc : v.location = "" → ms.datacenterID ≠ "")
    (hid : id ∈ c.pickable selector.resolutionPolicy
      (c.selected selector ms.version (c.locationFor v))) :
    ∃ tr v', Runs (lookupImageID ms) v tr (.val (.ok id)) v' ∧
      ∀ e ∈ tr, c.Answers False e.call e.answer := by
  have hselected := Catalog.pickable_subset hpolicy hid
  have horders : ∀ keys : List String, ∃ order : List String,
      order.Perm keys ∧ (id ∈ order → order.head? = some id) := by
    intro keys
    by_cases hmem : id ∈ keys
    · exact ⟨id :: keys.erase id, (List.perm_cons_erase hmem).symm, fun _ => rfl⟩
    · exact ⟨keys, .refl _, fun h => absurd h hmem⟩
  obtain ⟨tr, r, v', hrun, hadmits⟩ :=
    exists_run (c.exists_answer False horders) (lookupImageID ms) () v
  have hspec := lookupImageID_found c (fun order => id ∈ order → order.head? = some id) himage
    hversion fun h h' => hdc h h'
  have hanswers : ∀ e ∈ tr, c.Answers False e.call e.answer :=
    fun e he => (Catalog.admits_iff.mp hadmits e he).1
  cases r with
  | panic msg => exact (wp_runs_panic hspec hrun hadmits).elim
  | val result =>
    suffices hresult : result = .ok id from ⟨tr, v', hresult ▸ hrun, hanswers⟩
    rcases wp_runs hspec hrun hadmits with ⟨-, order, hperm, horder, hresolves, mismatch, hpick⟩ | h
    · rcases hpolicy with hexact | hnewest
      · rw [hexact] at hid
        exact hresolves.exact_one hexact id hid
      · rw [hnewest] at hid hpick
        have hhead := horder (hperm.mem_iff.mpr hselected.1)
        obtain ⟨rest, rfl⟩ : ∃ rest, order = id :: rest := by
          cases order with
          | nil => exact nomatch hhead
          | cons id' rest => exact ⟨rest, by rw [Option.some.inj hhead]⟩
        rw [Catalog.found, List.filter_cons, if_pos (by simpa using hselected.2), List.map_cons,
          pickImage_newest_first, c.deref_id] at hpick
        · exact (Res.val.inj hpick).symm
        · intro i hi
          obtain ⟨id', hid', rfl⟩ := List.mem_map.mp hi
          obtain ⟨hmem, hfits⟩ := List.mem_filter.mp hid'
          exact hid.2 id' ⟨hperm.mem_iff.mp (List.mem_cons_of_mem _ hmem), by simpa using hfits⟩
    · exact h.1.elim

end

/-- Whatever image a lookup returns, the version in its name is the machine's. -/
def Catalog.VersionKept (c : Catalog) (ms : MachineScope) (v : MachineVars) : Prop :=
  ∀ tr id v', Runs (lookupImageID ms) v tr (.val (.ok id)) v' →
    (∀ e ∈ tr, c.Answers True e.call e.answer) →
    Data.versions (deref (c.image id).name "").toList = [ms.version.toList]

/-- The version in the name of the image is the machine's for every lookup if and only if no image
that the policy can end up with has the machine's version followed by another digit in its name. -/
theorem image_has_version (c : Catalog) (ms : MachineScope) (v : MachineVars)
    (selector : ImageSelector) (himage : ms.spec.disk.image = ⟨"", some selector⟩)
    (huse : deref selector.useMachineVersion true = true)
    (hpolicy : selector.resolutionPolicy = .exact ∨ selector.resolutionPolicy = .newest)
    (hversion : Data.IsVersion ms.version.toList)
    (hnames : ∀ id ∈ c.imageIDs, ∃ token,
      Data.versions (deref (c.image id).name "").toList = [token]) :
    c.VersionKept ms v ↔
    ((v.location = "" → ms.datacenterID ≠ "") →
      ∀ id ∈ c.pickable selector.resolutionPolicy
        (c.selected selector ms.version (c.locationFor v)),
      ∀ d : Char, d.isDigit = true →
        ¬(ms.version.toList ++ [d]) <:+: (deref (c.image id).name "").toList) := by
  have hgiven : ms.version ≠ "" := by
    intro hempty
    rw [hempty] at hversion
    exact absurd hversion (by decide)
  -- for an image that is picked, the one version in its name starts with the machine's
  have hiff : ∀ id ∈ c.pickable selector.resolutionPolicy
      (c.selected selector ms.version (c.locationFor v)),
      Data.versions (deref (c.image id).name "").toList = [ms.version.toList] ↔
        ∀ d : Char, d.isDigit = true →
          ¬(ms.version.toList ++ [d]) <:+: (deref (c.image id).name "").toList := by
    intro id hid
    obtain ⟨hmem, -, -, hname⟩ := Catalog.pickable_subset hpolicy hid
    obtain ⟨token, htoken⟩ := hnames id hmem
    rw [← Data.version_eq_iff hversion htoken (Text.contains_iff.mp (hname huse)), htoken]
    simp
  constructor
  · intro hall hdc id hid
    obtain ⟨tr, v', hrun, hanswers⟩ :=
      lookupImageID_can_pick himage hpolicy (fun _ => hgiven) hdc hid
    refine (hiff id hid).mp (hall tr id v' hrun fun e he => ?_)
    exact (hanswers e he).mayFail
  · intro hnone tr id v' hrun hanswers
    have hfail : v.location = "" → ms.datacenterID = "" → True := fun _ _ => trivial
    have hspec := lookupImageID_found c (fun _ => True) himage (fun _ => hgiven) hfail
    rcases wp_runs hspec hrun (Catalog.admits_any hanswers) with ⟨hdc, _, _, _, hresolves, _⟩ | h
    · have hid := hresolves.mem_pickable hpolicy
      exact (hiff id hid).mpr (hnone hdc id hid)
    · obtain ⟨-, e, h⟩ := h
      exact nomatch h

/-- With names that have the machine's version and no further digit, any image will do. -/
theorem image_has_version_alone :
    (twoImages "node-v1.30.1" "node-v1.30.1").VersionKept (choosingMachine "v1.30.1") default := by
  have hname : ∀ id, deref ((twoImages "node-v1.30.1" "node-v1.30.1").image id).name "" =
      "node-v1.30.1" := fun id => ite_self "node-v1.30.1"
  refine (image_has_version (twoImages "node-v1.30.1" "node-v1.30.1") (choosingMachine "v1.30.1")
    default _ rfl rfl (.inr rfl) (by decide) ?_).mpr ?_
  · intro id _
    rw [hname]
    exact ⟨"v1.30.1".toList, by decide⟩
  · intro _ id _ d hd hinfix
    rw [hname] at hinfix
    have hone : Data.versions "node-v1.30.1".toList = ["v1.30.1".toList] := by decide
    have hfound := (List.prefix_append _ _).isInfix.trans hinfix
    exact (Data.version_eq_iff (by decide) hone hfound).mp rfl d hd hinfix

/-- An image for version 1.30.10 has version 1.30.1 in its name, and it is the newer one. -/
theorem image_has_other_version :
    let c := twoImages "node-v1.30.1" "node-v1.30.10"
    Data.IsVersion "v1.30.1".toList ∧
    (∀ id ∈ c.imageIDs, ∃ token, Data.versions (deref (c.image id).name "").toList = [token]) ∧
    ¬c.VersionKept (choosingMachine "v1.30.1") default ∧
    ∃ tr v', Runs (lookupImageID (choosingMachine "v1.30.1")) default tr (.val (.ok "2")) v' ∧
      (∀ e ∈ tr, c.Answers False e.call e.answer) ∧
      Data.versions (deref (c.image "2").name "").toList = ["v1.30.10".toList] := by
  intro c
  refine ⟨by decide, ?_, ?_⟩
  · intro id hid
    have hids : c.imageIDs = ["1", "2"] := by decide
    rw [hids] at hid
    rcases List.mem_pair.mp hid with rfl | rfl
    · exact ⟨"v1.30.1".toList, by decide⟩
    · exact ⟨"v1.30.10".toList, by decide⟩
  · have hlatest : ∀ id', (c.image id').createdDate ≤ 2 := by
      intro id'
      show (if id' = "2" then 2 else 1) ≤ (2 : Int)
      split <;> omega
    have hpickable : "2" ∈ c.pickable .newest
        (c.selected ⟨[("os", "linux")], .newest, none⟩ "v1.30.1" "de/fra") :=
      ⟨⟨by decide, by decide⟩, fun id' _ => hlatest id'⟩
    have hdc : (default : MachineVars).location = "" →
        (choosingMachine "v1.30.1").datacenterID ≠ "" := by decide
    obtain ⟨tr, v', hrun, hanswers⟩ :=
      lookupImageID_can_pick rfl (.inr rfl) (by decide) hdc hpickable
    have hother : Data.versions (deref (c.image "2").name "").toList = ["v1.30.10".toList] := by
      decide
    refine ⟨fun hkept => ?_, tr, v', hrun, hanswers, hother⟩
    have hsame := hkept tr "2" v' hrun fun e he => (hanswers e he).mayFail
    rw [hother] at hsame
    exact absurd hsame (by decide)

end Capic.Properties
