import JarRefinery.Release.Resolve

/-!
# Manifests

Every version that a manifest lists has an id, so a word that a manifest declares to stand for a listed
version is looked up under the id of that version.
-/

namespace JarRefinery

namespace Schema.Checked

variable {α β : Type}

theorem seq_eq_ok_iff {f : Checked (α → β)} {x : Checked α} {value : β} :
    f <*> x = .ok value ↔ ∃ g a, f = .ok g ∧ x = .ok a ∧ g a = value := by
  constructor
  · intro hvalue
    rcases f with violations | g <;> rcases x with others | a
    · cases hvalue
    · cases hvalue
    · cases hvalue
    · exact ⟨g, a, rfl, rfl, Except.ok.inj hvalue⟩
  · rintro ⟨g, a, rfl, rfl, rfl⟩
    rfl

theorem map_eq_ok_iff {f : α → β} {x : Checked α} {value : β} :
    f <$> x = .ok value ↔ ∃ a, x = .ok a ∧ f a = value := by
  have hmap : f <$> x = (pure f : Checked (α → β)) <*> x := rfl
  rw [hmap, seq_eq_ok_iff]
  constructor
  · rintro ⟨_, a, ⟨⟩, hx, hvalue⟩
    exact ⟨a, hx, hvalue⟩
  · rintro ⟨a, hx, hvalue⟩
    exact ⟨f, a, rfl, hx, hvalue⟩

theorem of_bind_eq_ok {x : Checked α} {f : α → Checked β} {value : β}
    (hbind : x.bind f = .ok value) : ∃ a, x = .ok a ∧ f a = .ok value := by
  rcases x with violations | a
  · cases hbind
  · exact ⟨a, rfl, hbind⟩

theorem under_eq_ok_iff {step : String} {checked : Checked α} {value : α} :
    under step checked = .ok value ↔ checked = .ok value := by
  cases checked <;> simp [under]

end Schema.Checked

namespace Schema

open Checked

variable {α : Type}

theorem model_eq_ok {check : Json.Fields → Checked α} {json : Json} {value : α}
    (hmodel : model check json = .ok value) : ∃ fields, check fields = .ok value := by
  unfold model at hmodel
  split at hmodel
  · exact ⟨_, hmodel⟩
  · cases hmodel

theorem sequence_eq_ok {checks : List (Checked α)} {values : List α}
    (hsequence : sequence checks = .ok values) : ∀ value ∈ values, .ok value ∈ checks := by
  induction checks generalizing values with
  | nil =>
    obtain rfl := Except.ok.inj hsequence
    simp
  | cons check rest ih =>
    obtain ⟨g, others, hfirst, hrest, rfl⟩ := seq_eq_ok_iff.mp hsequence
    obtain ⟨first, rfl, rfl⟩ := map_eq_ok_iff.mp hfirst
    intro value hvalue
    rcases List.mem_cons.mp hvalue with rfl | hvalue
    · exact List.mem_cons_self
    · exact List.mem_cons_of_mem _ (ih hrest value hvalue)

theorem list_eq_ok {check : Json → Checked α} {json : Json} {values : List α}
    (hlist : list check json = .ok values) : ∀ value ∈ values, ∃ item, check item = .ok value := by
  unfold list at hlist
  split at hlist
  · intro value hvalue
    obtain ⟨⟨item, index⟩, -, hitem⟩ := List.mem_map.mp (sequence_eq_ok hlist value hvalue)
    exact ⟨item, under_eq_ok_iff.mp hitem⟩
  · cases hlist

theorem nonemptyText_eq_ok {json : Json} {value : String}
    (htext : nonemptyText json = .ok value) : value ≠ "" := by
  obtain ⟨found, -, hfound⟩ := of_bind_eq_ok htext
  rintro rfl
  cases hempty : found.isEmpty with
  | true => simp [hempty, refuse] at hfound
  | false =>
    simp only [hempty] at hfound
    obtain rfl := Except.ok.inj hfound
    cases hempty

theorem required_eq_ok {name : String} {check : Json → Checked α} {fields : Json.Fields} {value : α}
    (hrequired : required name check fields = .ok value) : ∃ json, check json = .ok value := by
  unfold required at hrequired
  split at hrequired
  · cases hrequired
  · exact ⟨_, under_eq_ok_iff.mp hrequired⟩

end Schema

open Schema Schema.Checked

theorem VersionEntry.id_ne_empty {json : Json} {entry : VersionEntry}
    (hentry : VersionEntry.ofJson json = .ok entry) : entry.id ≠ "" := by
  obtain ⟨fields, hfields⟩ := model_eq_ok hentry
  obtain ⟨_, sha1, hurl, -, rfl⟩ := seq_eq_ok_iff.mp hfields
  obtain ⟨_, url, hkind, -, rfl⟩ := seq_eq_ok_iff.mp hurl
  obtain ⟨_, kind, hmap, -, rfl⟩ := seq_eq_ok_iff.mp hkind
  obtain ⟨id, hid, rfl⟩ := map_eq_ok_iff.mp hmap
  obtain ⟨_, htext⟩ := required_eq_ok hid
  exact nonemptyText_eq_ok htext

/-- Every version that a manifest lists has an id. -/
theorem VersionManifest.id_ne_empty {json : Json} {manifest : VersionManifest}
    (hmanifest : VersionManifest.ofJson json = .ok manifest) :
    ∀ entry ∈ manifest.versions, entry.id ≠ "" := by
  obtain ⟨fields, hfields⟩ := model_eq_ok hmanifest
  obtain ⟨_, versions, hlatest, hversions, rfl⟩ := seq_eq_ok_iff.mp hfields
  obtain ⟨latest, -, rfl⟩ := map_eq_ok_iff.mp hlatest
  unfold field at hversions
  split at hversions
  · obtain rfl := Except.ok.inj hversions
    simp
  · intro entry hentry
    obtain ⟨json, hjson⟩ := list_eq_ok (under_eq_ok_iff.mp hversions) entry hentry
    exact VersionEntry.id_ne_empty hjson

/-- A word of this manifest stands for a version that it lists and that is no such word itself. -/
structure VersionManifest.Declares (manifest : VersionManifest) (word id : String) : Prop where
  stands : ReleaseSource.alias? manifest word = some (some id)
  listed : (manifest.find? id).isSome
  plain : ReleaseSource.alias? manifest id = none

/-- The word and the version are looked up under the same id. -/
theorem VersionManifest.Declares.wantedId_eq {manifest : VersionManifest} {word id : String}
    (hdeclares : manifest.Declares word id) (hids : ∀ entry ∈ manifest.versions, entry.id ≠ "") :
    ReleaseSource.wantedId manifest word = .ok id ∧ ReleaseSource.wantedId manifest id = .ok id := by
  obtain ⟨entry, hentry⟩ := Option.isSome_iff_exists.mp hdeclares.listed
  have hid : entry.id = id := by simpa using List.find?_some hentry
  have hempty : id.isEmpty = false := by
    have hne := hids entry (List.mem_of_find?_eq_some hentry)
    rw [hid] at hne
    simpa using hne
  constructor
  · simp [ReleaseSource.wantedId, hdeclares.stands, hempty]
  · simp [ReleaseSource.wantedId, hdeclares.plain]

end JarRefinery
