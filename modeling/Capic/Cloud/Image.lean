import Capic.Cloud.IPBlock

/-!
# Images

`internal/service/cloud/image.go`: the image of the boot volume is either given by
its ID or chosen by labels, location and, unless switched off, the Kubernetes version
in its name.

Mirroring notes. A Go map from image IDs to labels is an association list; the order
in which the code ranges over it is asked for with `mapOrder`. `slices.SortFunc` is
not stable, which the arbitrary order of the images before the sort accounts for.
-/

namespace Capic.Cloud

open Effect Effect.Go

variable {σ : Type}

/-- `mapContains`: `b` is wholly contained in `a`. -/
def mapContains (a b : List (String × String)) : Bool :=
  b.all fun kv => a.lookup kv.1 = some kv.2

/-- `imageLabelMap[id][key] = value`, with the inner map made if it is missing. -/
def putImageLabel (imageLabelMap : List (String × List (String × String)))
    (id key value : String) : List (String × List (String × String)) :=
  match imageLabelMap with
  | [] => [(id, [(key, value)])]
  | (id', labels) :: rest =>
    if id' = id then (id', setLabel labels key value) :: rest
    else (id', labels) :: putImageLabel rest id key value

/-- One round of the loop of `lookupImagesBySelector` over the labels. -/
def addImageLabel (m : List (String × List (String × String))) (label : Label) :
    List (String × List (String × String)) :=
  if deref label.resourceType "" ≠ "image" then m
  else putImageLabel m (deref label.resourceID "") (deref label.key "") (deref label.value "")

/-- The loop. -/
def imageLabelMap (resourceLabels : List Label) : List (String × List (String × String)) :=
  resourceLabels.foldl addImageLabel []

/-! ## The map of labels -/

/-- `imageLabelMap[id][key]`, where it is set. -/
def imageLabel (m : List (String × List (String × String))) (id key : String) : Option String :=
  (deref (m.lookup id) []).lookup key

theorem imageLabel_cons (id : String) (labels : List (String × String))
    (m : List (String × List (String × String))) (id' key : String) :
    imageLabel ((id, labels) :: m) id' key =
      if id' = id then labels.lookup key else imageLabel m id' key := by
  unfold imageLabel
  rw [List.lookup_cons]
  by_cases hid : id' = id
  · simp [hid, deref]
  · rw [beq_eq_false_iff_ne.mpr hid, if_neg hid]

theorem imageLabel_put (m : List (String × List (String × String)))
    (id key value id' key' : String) :
    imageLabel (putImageLabel m id key value) id' key' =
      if id' = id ∧ key' = key then some value else imageLabel m id' key' := by
  induction m with
  | nil =>
    rw [putImageLabel, imageLabel_cons]
    by_cases hid : id' = id
    · by_cases hkey : key' = key
      · simp [hid, hkey]
      · simp [hid, hkey, imageLabel, deref, List.lookup_cons, beq_eq_false_iff_ne.mpr hkey]
    · simp [hid]
  | cons entry m ih =>
    obtain ⟨id₀, labels⟩ := entry
    unfold putImageLabel
    by_cases h₀ : id₀ = id
    · subst h₀
      by_cases hid : id' = id₀
      · simp [imageLabel_cons, hid, lookup_setLabel]
      · simp [imageLabel_cons, hid]
    · by_cases hid : id' = id₀
      · subst hid
        simp [imageLabel_cons, h₀]
      · simp [imageLabel_cons, h₀, hid, ih]

theorem mem_keys_put (m : List (String × List (String × String))) (id key value id' : String) :
    id' ∈ (putImageLabel m id key value).map (·.1) ↔ id' ∈ m.map (·.1) ∨ id' = id := by
  induction m with
  | nil => simp [putImageLabel]
  | cons entry m ih =>
    unfold putImageLabel
    by_cases h₀ : entry.1 = id
    · simp [h₀]
      tauto
    · simp only [h₀, if_false, List.map_cons, List.mem_cons, ih, or_assoc]

theorem nodup_keys_put {m : List (String × List (String × String))} (id key value : String)
    (h : (m.map (·.1)).Nodup) : ((putImageLabel m id key value).map (·.1)).Nodup := by
  induction m with
  | nil => simp [putImageLabel]
  | cons entry m ih =>
    obtain ⟨hnew, hrest⟩ := List.nodup_cons.mp h
    unfold putImageLabel
    by_cases h₀ : entry.1 = id
    · rw [if_pos h₀]
      exact h
    · rw [if_neg h₀]
      refine List.nodup_cons.mpr ⟨fun hmem => ?_, ih hrest⟩
      rcases (mem_keys_put m id key value entry.1).mp hmem with hmem | heq
      · exact hnew hmem
      · exact h₀ heq

/-- An image with a label is in the map. -/
theorem mem_keys_of_imageLabel {m : List (String × List (String × String))} {id key value : String}
    (h : imageLabel m id key = some value) : id ∈ m.map (·.1) := by
  induction m with
  | nil => exact nomatch h
  | cons entry m ih =>
    obtain ⟨id₀, labels⟩ := entry
    rw [imageLabel_cons] at h
    by_cases hid : id = id₀
    · exact List.mem_cons.mpr (.inl hid)
    · rw [if_neg hid] at h
      exact List.mem_cons.mpr (.inr (ih h))

theorem mapContains_iff {m : List (String × List (String × String))} {id : String}
    {matchLabels : List (String × String)} :
    mapContains (deref (m.lookup id) []) matchLabels = true ↔
      ∀ kv ∈ matchLabels, imageLabel m id kv.1 = some kv.2 := by
  simp [mapContains, imageLabel]

/-- The label is one of the image, with that key. -/
def labelsImage (label : Label) (id key : String) : Prop :=
  deref label.resourceType "" = "image" ∧ deref label.resourceID "" = id ∧ deref label.key "" = key

instance (label : Label) (id key : String) : Decidable (labelsImage label id key) :=
  inferInstanceAs (Decidable (_ ∧ _ ∧ _))

theorem imageLabel_add (m : List (String × List (String × String))) (label : Label)
    (id key : String) :
    imageLabel (addImageLabel m label) id key =
      if labelsImage label id key then some (deref label.value "") else imageLabel m id key := by
  unfold addImageLabel
  by_cases himage : deref label.resourceType "" = "image"
  · have hlabels : labelsImage label id key ↔
        id = deref label.resourceID "" ∧ key = deref label.key "" := by
      simp only [labelsImage, himage, true_and, eq_comm]
    rw [if_neg (not_not_intro himage), imageLabel_put]
    simp only [hlabels]
  · have hlabels : ¬labelsImage label id key := fun h => himage h.1
    rw [if_pos himage, if_neg hlabels]

/-- No two labels are of the same image and have the same key. -/
def LabelsUnique (resourceLabels : List Label) : Prop :=
  resourceLabels.Pairwise fun a b => ∀ id key, labelsImage a id key → ¬labelsImage b id key

/-- A label that the loop adds stays: no later one is for the same image and key. -/
theorem imageLabel_foldl {resourceLabels : List Label} (hunique : LabelsUnique resourceLabels)
    (m : List (String × List (String × String))) (id key value : String) :
    imageLabel (resourceLabels.foldl addImageLabel m) id key = some value ↔
      (∃ label ∈ resourceLabels, labelsImage label id key ∧ deref label.value "" = value) ∨
        (∀ label ∈ resourceLabels, ¬labelsImage label id key) ∧ imageLabel m id key = some value := by
  induction resourceLabels generalizing m with
  | nil => simp
  | cons label labels ih =>
    obtain ⟨hlater, hrest⟩ := List.pairwise_cons.mp hunique
    rw [List.foldl_cons, ih hrest, imageLabel_add]
    by_cases hlabel : labelsImage label id key
    · have hnone : ∀ label' ∈ labels, ¬labelsImage label' id key :=
        fun label' hmem => hlater label' hmem id key hlabel
      have hfound : ¬∃ label' ∈ labels, labelsImage label' id key ∧ deref label'.value "" = value :=
        fun ⟨label', hmem, h⟩ => hnone label' hmem h.1
      simp only [hfound, false_or, hlabel, if_true, Option.some.injEq, List.mem_cons,
        exists_eq_or_imp, true_and, or_false]
      constructor
      · intro h
        exact .inl h.2
      · intro h
        rcases h with h | h
        · exact ⟨hnone, h⟩
        · exact absurd hlabel (h.1 label (.inl rfl))
    · simp [hlabel]

/-- What the map says of an image is what its labels say. -/
theorem imageLabel_imageLabelMap {resourceLabels : List Label}
    (hunique : LabelsUnique resourceLabels) {id key value : String} :
    imageLabel (imageLabelMap resourceLabels) id key = some value ↔
      ∃ label ∈ resourceLabels, labelsImage label id key ∧ deref label.value "" = value := by
  rw [imageLabelMap, imageLabel_foldl hunique]
  simp [imageLabel, deref]

/-- An image is in the map once. -/
theorem nodup_imageLabelMap (resourceLabels : List Label) :
    ((imageLabelMap resourceLabels).map (·.1)).Nodup := by
  unfold imageLabelMap
  have hnil : (([] : List (String × List (String × String))).map (·.1)).Nodup := List.nodup_nil
  refine List.foldlRecOn (motive := fun m => (m.map (·.1)).Nodup) resourceLabels addImageLabel
    hnil fun m hm label _ => ?_
  unfold addImageLabel
  split
  · exact hm
  · exact nodup_keys_put _ _ _ hm

/-! ## The images -/

/-- The loop of `lookupImagesBySelector` over the image IDs. -/
def getImages (location : String) : List String → Go Call Call.Ans σ (Except Err (List Image))
  | [] => return .ok []
  | imageID :: imageIDs => do
    match ← Client.getImage imageID with
    | .error e => return .error e
    | .ok image =>
      match ← getImages location imageIDs with
      | .error e => return .error e
      | .ok images =>
        if deref image.location "" = location then return .ok (image :: images)
        else return .ok images

/-- `lookupImagesBySelector`. -/
def lookupImagesBySelector (location : String) (selector : Option ImageSelector) :
    Go Call Call.Ans σ (Except Err (List Image)) := do
  match ← Client.listLabels with
  | .error e => return .error e
  | .ok resourceLabels =>
    let labelMap := imageLabelMap resourceLabels
    match selector with
    | none =>
      -- the selector is first read for the first image in the map
      if labelMap = [] then return .ok [] else panicking "nil pointer dereference"
    | some selector =>
      let order ← perform (Call.mapOrder (labelMap.map (·.1)))
      getImages location <| order.1.filter fun id =>
        mapContains (deref (labelMap.lookup id) []) selector.matchLabels

/-- `filterImagesByName`. -/
def filterImagesByName (images : List Image) (namePart : String) : List Image :=
  images.filter fun image => Text.contains (deref image.name "") namePart

/-- `getImageIDs`. -/
def getImageIDs : List Image → Res (List String)
  | [] => .val []
  | image :: images =>
    match image.id, getImageIDs images with
    | some id, .val ids => .val (id :: ids)
    | none, _ => .panic "nil pointer dereference"
    | _, .panic text => .panic text

theorem getImageIDs_panic {images : List Image} {msg : String} (h : getImageIDs images = .panic msg) :
    msg = "nil pointer dereference" := by
  induction images with
  | nil => exact nomatch h
  | cons image images ih =>
    rw [getImageIDs] at h
    split at h
    next => exact nomatch h
    next => exact (Res.panic.inj h).symm
    next text hrest _ => exact ih (hrest.trans (congrArg Res.panic (Res.panic.inj h)))

theorem getImageIDs_given {images : List Image} (h : ∀ image ∈ images, image.id ≠ none) :
    ∃ ids, getImageIDs images = .val ids := by
  induction images with
  | nil => exact ⟨[], rfl⟩
  | cons image images ih =>
    obtain ⟨ids, hids⟩ := ih fun i hi => h i (List.mem_cons_of_mem _ hi)
    obtain ⟨id, hid⟩ := Option.ne_none_iff_exists'.mp (h image List.mem_cons_self)
    refine ⟨id :: ids, ?_⟩
    rw [getImageIDs, hid, hids]

/-- The images that the version filter of `lookupImageID` leaves. -/
def foundImages (machineVersion : String) (selector : ImageSelector) (images : List Image) :
    List Image :=
  if deref selector.useMachineVersion true then filterImagesByName images machineVersion else images

/-- The resolution policy of `lookupImageID`, and its choice among the images found. -/
def pickImage (policy : ResolutionPolicy) (mismatch : List String → Err) :
    List Image → Res (Except Err String)
  | [] => .val (.error (mismatch []))
  | image :: rest =>
    match policy with
    | .exact =>
      if rest = [] then .val (.ok (deref image.id ""))
      else
        match getImageIDs (image :: rest) with
        | .val ids => .val (.error (mismatch ids))
        | .panic text => .panic text
    | .newest =>
      match (image :: rest).insertionSort (fun a b => b.createdDate ≤ a.createdDate) with
      | [] => .panic "index out of range [0] with length 0"
      | newest :: _ => .val (.ok (deref newest.id ""))
    | .other _ => .val (.ok (deref image.id ""))

/-- `lookupImageID` on the images that match by label. -/
def resolveImage (machineVersion location : String) (selector : ImageSelector)
    (images : List Image) : Res (Except Err String) :=
  let useMachineVersion := deref selector.useMachineVersion true
  if useMachineVersion ∧ machineVersion = "" then .val (.error .missingMachineVersion)
  else
    let version := if useMachineVersion then machineVersion else ""
    pickImage selector.resolutionPolicy
      (fun ids => .imageMatch ids selector.matchLabels location version images.length)
      (foundImages machineVersion selector images)

theorem pickImage_panic {policy : ResolutionPolicy} {mismatch : List String → Err}
    {found : List Image} {msg : String} (h : pickImage policy mismatch found = .panic msg) :
    msg = "nil pointer dereference" := by
  unfold pickImage at h
  split at h
  next => exact nomatch h
  next image rest =>
    split at h
    next =>
      split at h
      next => exact nomatch h
      next =>
        split at h
        next => exact nomatch h
        next text hids => exact getImageIDs_panic (hids.trans (congrArg Res.panic (Res.panic.inj h)))
    next =>
      -- a list that is not empty is not empty when it is sorted
      obtain ⟨newest, others, hsorted⟩ := Data.newestFirst_ne_nil Image.createdDate
        (List.cons_ne_nil image rest)
      rw [hsorted] at h
      exact nomatch h
    next => exact nomatch h

theorem resolveImage_panic {version location : String} {selector : ImageSelector}
    {images : List Image} {msg : String}
    (h : resolveImage version location selector images = .panic msg) :
    msg = "nil pointer dereference" := by
  unfold resolveImage at h
  dsimp only at h
  split at h
  next => exact nomatch h
  next => exact pickImage_panic h

section

variable {machineVersion : String} {selector : ImageSelector}

/-- With a version to look for, or no need of one, the policy decides. -/
theorem resolveImage_eq (location : String) (images : List Image)
    (hversion : deref selector.useMachineVersion true = true → machineVersion ≠ "") :
    ∃ version, resolveImage machineVersion location selector images =
      pickImage selector.resolutionPolicy
        (fun ids => .imageMatch ids selector.matchLabels location version images.length)
        (foundImages machineVersion selector images) :=
  ⟨_, if_neg fun h => hversion h.1 h.2⟩

variable (mismatch : List String → Err) {found : List Image}

/-- `Exact` does not choose. -/
theorem pickImage_many {image image' : Image} {rest : List Image}
    (hids : ∀ i ∈ image :: image' :: rest, i.id ≠ none) :
    ∃ ids, pickImage .exact mismatch (image :: image' :: rest) = .val (.error (mismatch ids)) := by
  obtain ⟨ids, hgot⟩ := getImageIDs_given hids
  exact ⟨ids, by simp [pickImage, hgot]⟩

/-- `Newest` takes one with the latest date. -/
theorem pickImage_newest (hfound : found ≠ []) :
    ∃ image ∈ found, (∀ i ∈ found, i.createdDate ≤ image.createdDate) ∧
      pickImage .newest mismatch found = .val (.ok (deref image.id "")) := by
  obtain ⟨newest, rest, hsorted⟩ := Data.newestFirst_ne_nil Image.createdDate hfound
  obtain ⟨hmem, hlatest⟩ := Data.newestFirst_head hsorted
  refine ⟨newest, hmem, hlatest, ?_⟩
  cases found with
  | nil => exact absurd rfl hfound
  | cons image found => rw [pickImage, hsorted]

/-- If the first one has it, it is that one. -/
theorem pickImage_newest_first {image : Image}
    (hlatest : ∀ i ∈ found, i.createdDate ≤ image.createdDate) :
    pickImage .newest mismatch (image :: found) = .val (.ok (deref image.id "")) := by
  obtain ⟨rest, hsorted⟩ := Data.newestFirst_cons hlatest
  rw [pickImage, hsorted]

end

/-- `lookupImageID` once the location is known. -/
def imageAt (ms : MachineScope) (location : String) : MachineM (Except Err String) := do
  match ← lookupImagesBySelector location ms.spec.disk.image.selector with
  | .error e => return .error e
  | .ok images =>
    match ms.spec.disk.image.selector with
    | none => panicking "nil pointer dereference"
    | some selector => conclude (resolveImage ms.version location selector images)

/-- `lookupImageID`. -/
def lookupImageID (ms : MachineScope) : MachineM (Except Err String) := do
  if ms.spec.disk.image.id ≠ "" then return .ok ms.spec.disk.image.id
  else
    match ← getLocation ms with
    | .error e => return .error e
    | .ok location => imageAt ms location

end Capic.Cloud
