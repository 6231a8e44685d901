import EmulationBindings.Failure
import EmulationBindings.Proofs.Reading

/-!
# Looking a package up

The first entry with the name that is looked for decides alone.  A package comes out when its
fields are strings, the metadata are malformed when they are not, and what the other entries hold,
of whatever kind they are, makes no difference.
-/

namespace EmulationBindings

/-! ## Strings -/

namespace Json

theorem string?_eq_some_iff {v : Json} {s : Str} : v.string? = some s ↔ v = s.value := by
  cases s <;> cases v <;> simp [string?, Str.value]

@[simp] theorem string?_value (s : Str) : s.value.string? = some s :=
  string?_eq_some_iff.mpr rfl

end Json

/-! ## Fields of a record -/

namespace Shape

/-- What an optional string stands for: itself, or nothing where it is null or absent. -/
inductive OptionalString : Option Json → Option Json.Str → Prop where
  | absent : OptionalString none none
  | null : OptionalString (some .null) none
  | string (s : Json.Str) : OptionalString (some s.value) (some s)

section

variable {α β : Type} {ms : Json.Members} {field : Text}

theorem apply_eq_ok_iff {f : Checked (α → β)} {a : Checked α} {b : β} :
    Checked.apply f a = .ok b ↔ ∃ g x, f = .ok g ∧ a = .ok x ∧ g x = b := by
  cases f <;> cases a <;> simp [Checked.apply]

theorem map_eq_ok_iff {g : α → β} {a : Checked α} {b : β} :
    a.map g = .ok b ↔ ∃ x, a = .ok x ∧ g x = b := by
  cases a <;> simp [Except.map]

theorem required_eq_ok_iff {read : Json → Checked α} {a : α} :
    required ms field read = .ok a ↔ ∃ v, ms.get? field = some v ∧ read v = .ok a := by
  unfold required
  cases ms.get? field with
  | none => simp [under, complain]
  | some v => simp [under, mapError_eq_ok_iff]

theorem string_eq_ok_iff {v : Json} {s : Json.Str} : string v = .ok s ↔ v = s.value := by
  rw [← Json.string?_eq_some_iff, string]
  cases v.string? <;> simp [complain]

theorem required_string_eq_ok_iff {s : Json.Str} :
    required ms field string = .ok s ↔ ms.get? field = some s.value := by
  simp [required_eq_ok_iff, string_eq_ok_iff]

theorem required_items_eq_ok_iff {vs : List Json} :
    required ms field items = .ok vs ↔ ms.get? field = some (.array vs) := by
  rw [required_eq_ok_iff]
  constructor
  · rintro ⟨v, hfield, hitems⟩
    cases v with
    | array ws => rw [hfield, Except.ok.inj hitems]
    | _ => simp [items, complain] at hitems
  · intro hfield
    exact ⟨_, hfield, rfl⟩

theorem optionalString_value (s : Json.Str) : optionalString s.value = .ok (some s) := by
  cases s <;> rfl

theorem withDefault_optionalString_eq_ok_iff {s? : Option Json.Str} :
    withDefault ms field none optionalString = .ok s? ↔ OptionalString (ms.get? field) s? := by
  unfold withDefault
  generalize ms.get? field = v?
  constructor
  · intro hread
    cases v? with
    | none =>
        obtain rfl : none = s? := by simpa using hread
        exact .absent
    | some v =>
        simp only [under, mapError_eq_ok_iff] at hread
        unfold optionalString at hread
        split at hread
        · obtain rfl := Except.ok.inj hread
          exact .null
        · obtain ⟨s, hs, rfl⟩ := map_eq_ok_iff.mp hread
          obtain rfl := string_eq_ok_iff.mp hs
          exact .string s
  · rintro (_ | _ | s)
    · rfl
    · rfl
    · simp [under, optionalString_value]

end

end Shape

namespace Metadata

open EmulationBindings.Shape

/-- The metadata list these packages, and name a root or none. -/
def Lists (metadata : Json) (packages : List Json) : Prop :=
  ∃ (ms : Json.Members) (root : Option Json.Str), metadata = .object ms ∧
    ms.get? "packages" = some (.array packages) ∧ OptionalString (ms.get? "workspace_root") root

/-- The entry is an object with exactly this name. -/
def IsNamed (name : Json.Str) (entry : Json) : Prop :=
  ∃ ms : Json.Members, entry = .object ms ∧ ms.get? "name" = some name.value

/-- The object with these members is the first one of this name. -/
def IsFirst (name : Json.Str) (packages : List Json) (ms : Json.Members) : Prop :=
  ms.get? "name" = some name.value ∧
    ∃ before after, packages = before ++ .object ms :: after ∧
      ∀ entry ∈ before, ¬ IsNamed name entry

/-- The package has the values that these members have. -/
structure Describes (ms : Json.Members) (p : Package) : Prop where
  name : ms.get? "name" = some p.name.value
  version : OptionalString (ms.get? "version") p.version
  manifestPath : ms.get? "manifest_path" = some p.manifestPath.value

/-! ## Entries -/

section

variable {name : Json.Str} {entry : Json} {ms : Json.Members}

theorem named?_eq_some_iff :
    named? name entry = some ms ↔ entry = .object ms ∧ ms.get? "name" = some name.value := by
  unfold named?
  split
  · next ms' =>
    split
    · next s hstring =>
      obtain ⟨v, hname, hv⟩ := Option.bind_eq_some_iff.mp hstring
      obtain rfl := Json.string?_eq_some_iff.mp hv
      constructor
      · intro hsome
        obtain ⟨rfl, rfl⟩ : s = name ∧ ms' = ms := by simpa using hsome
        exact ⟨rfl, hname⟩
      · rintro ⟨hentry, hsame⟩
        obtain rfl := Json.object.inj hentry
        rw [hsame, Option.bind_some, Json.string?_value] at hstring
        rw [if_pos (Option.some.inj hstring).symm]
    · next hnone =>
      simp only [reduceCtorEq, Json.object.injEq, false_iff]
      rintro ⟨rfl, hsame⟩
      rw [hsame, Option.bind_some, Json.string?_value] at hnone
      simp at hnone
  · next hnot =>
    simp only [reduceCtorEq, false_iff]
    rintro ⟨hentry, -⟩
    exact hnot ms hentry

theorem named?_eq_none_iff : named? name entry = none ↔ ¬ IsNamed name entry := by
  rw [Option.eq_none_iff_forall_ne_some]
  simp [IsNamed, named?_eq_some_iff]

theorem isSome_named?_iff : (named? name entry).isSome ↔ IsNamed name entry := by
  rw [Option.isSome_iff_exists]
  simp [IsNamed, named?_eq_some_iff]

instance (name : Json.Str) (entry : Json) : Decidable (IsNamed name entry) :=
  decidable_of_iff _ isSome_named?_iff

theorem findSome?_named?_eq_some_iff {packages : List Json} :
    packages.findSome? (named? name) = some ms ↔ IsFirst name packages ms := by
  rw [List.findSome?_eq_some_iff]
  simp only [named?_eq_some_iff, named?_eq_none_iff]
  constructor
  · rintro ⟨before, entry, after, hpackages, ⟨rfl, hname⟩, hbefore⟩
    exact ⟨hname, before, after, hpackages, hbefore⟩
  · rintro ⟨hname, before, after, hpackages, hbefore⟩
    exact ⟨before, .object ms, after, hpackages, ⟨rfl, hname⟩, hbefore⟩

theorem findSome?_named?_eq_none_iff {packages : List Json} :
    packages.findSome? (named? name) = none ↔ ∀ entry ∈ packages, ¬ IsNamed name entry := by
  simp [List.findSome?_eq_none_iff, named?_eq_none_iff]

theorem findSome?_named?_eq_bind (packages : List Json) :
    packages.findSome? (named? name) =
      (packages.find? (IsNamed name ·)).bind (named? name) := by
  induction packages with
  | nil => rfl
  | cons entry rest ih =>
      by_cases hentry : IsNamed name entry
      · obtain ⟨ms, hms⟩ := Option.isSome_iff_exists.mp (isSome_named?_iff.mpr hentry)
        simp [hentry, hms]
      · have hnone := named?_eq_none_iff.mpr hentry
        simp [hentry, hnone, ih]

end

/-! ## Records -/

theorem ofJson_eq_ok_iff {metadata : Json} {listing : Listing} :
    Listing.ofJson metadata = .ok listing ↔
      ∃ ms : Json.Members, metadata = .object ms ∧
        ms.get? "packages" = some (.array listing.packages) ∧
        OptionalString (ms.get? "workspace_root") listing.workspaceRoot := by
  unfold Listing.ofJson finish
  rw [mapError_eq_ok_iff]
  constructor
  · intro hread
    obtain ⟨ms, hmembers, hread⟩ := exists_of_bind_eq_ok hread
    obtain ⟨_, root, hlist, hroot, rfl⟩ := apply_eq_ok_iff.mp hread
    obtain ⟨packages, hpackages, rfl⟩ := map_eq_ok_iff.mp hlist
    cases metadata with
    | object ms' =>
        obtain rfl := Except.ok.inj hmembers
        exact ⟨ms', rfl, required_items_eq_ok_iff.mp hpackages,
          withDefault_optionalString_eq_ok_iff.mp hroot⟩
    | _ => simp [members, complain] at hmembers
  · rintro ⟨ms, rfl, hpackages, hroot⟩
    rw [bind_of_eq_ok (rfl : members "CargoMetadata" (.object ms) = .ok ms)]
    exact apply_eq_ok_iff.mpr ⟨_, _, map_eq_ok_iff.mpr ⟨_, required_items_eq_ok_iff.mpr hpackages,
      rfl⟩, withDefault_optionalString_eq_ok_iff.mpr hroot, rfl⟩

theorem ofMembers_eq_ok_iff {ms : Json.Members} {p : Package} :
    Package.ofMembers ms = .ok p ↔ Describes ms p := by
  unfold Package.ofMembers finish
  rw [mapError_eq_ok_iff]
  simp only [apply_eq_ok_iff, map_eq_ok_iff, required_string_eq_ok_iff,
    withDefault_optionalString_eq_ok_iff]
  constructor
  · rintro ⟨_, manifestPath, ⟨_, version, ⟨name, hname, rfl⟩, hversion, rfl⟩, hmanifest, rfl⟩
    exact ⟨hname, hversion, hmanifest⟩
  · rintro ⟨hname, hversion, hmanifest⟩
    exact ⟨_, _, ⟨_, _, ⟨_, hname, rfl⟩, hversion, rfl⟩, hmanifest, rfl⟩

/-! ## The package found -/

section

variable {metadata : Json} {name : Json.Str}

theorem lists_iff {packages : List Json} :
    Lists metadata packages ↔
      ∃ listing, Listing.ofJson metadata = .ok listing ∧ listing.packages = packages := by
  constructor
  · rintro ⟨ms, root, hmetadata, hpackages, hroot⟩
    exact ⟨⟨packages, root⟩, ofJson_eq_ok_iff.mpr ⟨ms, hmetadata, hpackages, hroot⟩, rfl⟩
  · rintro ⟨listing, hlisting, rfl⟩
    obtain ⟨ms, hmetadata, hpackages, hroot⟩ := ofJson_eq_ok_iff.mp hlisting
    exact ⟨ms, listing.workspaceRoot, hmetadata, hpackages, hroot⟩

theorem findPackage_eq_ok_iff {p : Package} :
    findPackage metadata name = .ok p ↔
      ∃ packages ms, Lists metadata packages ∧ IsFirst name packages ms ∧ Describes ms p := by
  unfold findPackage
  simp only [lists_iff, ← findSome?_named?_eq_some_iff, ← ofMembers_eq_ok_iff]
  cases Listing.ofJson metadata with
  | error fault => simp
  | ok listing =>
      cases hfound : listing.packages.findSome? (named? name) with
      | none => simp [hfound]
      | some ms => simp [hfound, mapError_eq_ok_iff]

/-- Looking the package up fails at this stage. -/
def FailsAt (metadata : Json) (name : Json.Str) (stage : Stage) : Prop :=
  ∃ fault, findPackage metadata name = .error fault ∧ (Failure.lookup fault).stage = stage

theorem failsAt_dependencyNotFound_iff :
    FailsAt metadata name .dependencyNotFound ↔
      ∃ packages, Lists metadata packages ∧ ∀ entry ∈ packages, ¬ IsNamed name entry := by
  unfold FailsAt findPackage
  simp only [lists_iff, ← findSome?_named?_eq_none_iff]
  cases Listing.ofJson metadata with
  | error fault => simp [Failure.stage]
  | ok listing =>
      cases hfound : listing.packages.findSome? (named? name) with
      | none =>
          simp only [hfound]
          exact ⟨fun _ => ⟨_, ⟨_, rfl, rfl⟩, hfound⟩, fun _ => ⟨.absent name, rfl, rfl⟩⟩
      | some ms =>
          simp only [hfound]
          constructor
          · rintro ⟨fault, hfault, hstage⟩
            obtain ⟨shape, -, rfl⟩ := mapError_eq_error_iff.mp hfault
            simp [Failure.stage] at hstage
          · rintro ⟨_, ⟨_, hlisting, rfl⟩, hnone⟩
            obtain rfl := Except.ok.inj hlisting
            simp only [hfound, reduceCtorEq] at hnone

/-- A lookup fails at one of two stages. -/
theorem failsAt_or_of_error {fault : LookupFault}
    (herror : findPackage metadata name = .error fault) :
    FailsAt metadata name .dependencyNotFound ∨ FailsAt metadata name .malformedMetadata := by
  cases fault with
  | absent name' => exact .inl ⟨_, herror, rfl⟩
  | shape fault => exact .inr ⟨_, herror, rfl⟩
  | package name' fault => exact .inr ⟨_, herror, rfl⟩

theorem failsAt_malformedMetadata_iff :
    FailsAt metadata name .malformedMetadata ↔
      (∀ p, findPackage metadata name ≠ .ok p) ∧ ¬ FailsAt metadata name .dependencyNotFound := by
  constructor
  · rintro ⟨fault, hfault, hstage⟩
    refine ⟨fun p => by simp [hfault], ?_⟩
    rintro ⟨fault', hfault', hstage'⟩
    obtain rfl : fault = fault' := Except.error.inj (hfault.symm.trans hfault')
    rw [hstage] at hstage'
    cases hstage'
  · rintro ⟨hpackage, habsent⟩
    cases hresult : findPackage metadata name with
    | ok p => exact absurd hresult (hpackage p)
    | error fault => exact (failsAt_or_of_error hresult).resolve_left habsent

end

/-! ## The other entries -/

/-- With the same root and the same first package of this name, the rest does not matter. -/
theorem findPackage_congr {ms ms' : Json.Members} {name : Json.Str} {packages packages' : List Json}
    (hroot : ms.get? "workspace_root" = ms'.get? "workspace_root")
    (hpackages : ms.get? "packages" = some (.array packages))
    (hpackages' : ms'.get? "packages" = some (.array packages'))
    (hfirst : packages.find? (IsNamed name ·) = packages'.find? (IsNamed name ·)) :
    findPackage (.object ms) name = findPackage (.object ms') name := by
  have hlisting {ns : Json.Members} {entries : List Json}
      (hentries : ns.get? "packages" = some (.array entries)) :
      Listing.ofJson (.object ns) =
        ((withDefault ns "workspace_root" none optionalString).map (Listing.mk entries)).mapError
          (Fault.mk "CargoMetadata") := by
    unfold Listing.ofJson finish
    rw [bind_of_eq_ok (rfl : members "CargoMetadata" (.object ns) = .ok ns)]
    rw [required_items_eq_ok_iff.mpr hentries]
    cases withDefault ns "workspace_root" none optionalString <;> rfl
  have hsame : withDefault ms "workspace_root" none optionalString =
      withDefault ms' "workspace_root" none optionalString := by
    unfold withDefault
    rw [hroot]
  unfold findPackage
  rw [hlisting hpackages, hlisting hpackages', hsame]
  cases withDefault ms' "workspace_root" none optionalString with
  | error complaints => rfl
  | ok root =>
      simp only [Except.map, mapError_ok, findSome?_named?_eq_bind, hfirst]

/-- The first package of the name decides: a package comes out exactly when the metadata list
packages and the first one of this name has strings for its fields, and none is found exactly when
no package has the name. -/
theorem package_decided_by_first_match (metadata : Json) (name : Json.Str) :
    (∀ p, findPackage metadata name = .ok p ↔
      ∃ packages ms, Lists metadata packages ∧ IsFirst name packages ms ∧ Describes ms p) ∧
    (FailsAt metadata name .dependencyNotFound ↔
      ∃ packages, Lists metadata packages ∧ ∀ entry ∈ packages, ¬ IsNamed name entry) ∧
    (FailsAt metadata name .malformedMetadata ↔
      ¬ (∃ packages ms p, Lists metadata packages ∧ IsFirst name packages ms ∧ Describes ms p) ∧
      ¬ ∃ packages, Lists metadata packages ∧ ∀ entry ∈ packages, ¬ IsNamed name entry) ∧
    ∀ (ms ms' : Json.Members) (packages packages' : List Json), metadata = .object ms →
      ms.get? "packages" = some (.array packages) →
      ms'.get? "packages" = some (.array packages') →
      ms.get? "workspace_root" = ms'.get? "workspace_root" →
      packages.find? (IsNamed name ·) = packages'.find? (IsNamed name ·) →
      findPackage metadata name = findPackage (.object ms') name := by
  refine ⟨fun p => findPackage_eq_ok_iff, failsAt_dependencyNotFound_iff, ?_, ?_⟩
  · rw [failsAt_malformedMetadata_iff, failsAt_dependencyNotFound_iff]
    simp only [ne_eq, findPackage_eq_ok_iff]
    refine and_congr_left fun _ => ?_
    constructor
    · rintro hnone ⟨packages, ms, p, hp⟩
      exact hnone p ⟨packages, ms, hp⟩
    · rintro hnone p ⟨packages, ms, hp⟩
      exact hnone ⟨packages, ms, p, hp⟩
  · rintro ms ms' packages packages' rfl hpackages hpackages' hroot hfirst
    exact findPackage_congr hroot hpackages hpackages' hfirst

/-! ## Entries of many kinds -/

/-- A package with a manifest path that denotes no text. -/
def mixedEntry : Json.Members := [("name", .string "n"), ("manifest_path", .unpaired [0xD800])]

/-- Entries without a name come before the one that is looked for, and one without a manifest comes
after it. -/
def mixedEntries : List Json := [
  .null, .object [("name", .int 1)], .object mixedEntry, .object [("name", .string "n")]]

def mixedListing : Json.Members := [("packages", .array mixedEntries)]

theorem package_decided_by_first_match_of_mixed_entries :
    findPackage (.object mixedListing) "n" = .ok ⟨"n", none, .unpaired [0xD800]⟩ ∧
      findPackage (.object mixedListing) "n" =
        findPackage (.object [("packages", .array [.object mixedEntry, .bool true])]) "n" := by
  obtain ⟨hpackage, -, -, hothers⟩ := package_decided_by_first_match (.object mixedListing) "n"
  have hlists : Lists (.object mixedListing) mixedEntries := ⟨mixedListing, none, rfl, rfl, .absent⟩
  have hbefore : ∀ entry ∈ mixedEntries.take 2, ¬ IsNamed "n" entry := by decide
  have hfirst : IsFirst "n" mixedEntries mixedEntry :=
    ⟨rfl, mixedEntries.take 2, mixedEntries.drop 3, rfl, hbefore⟩
  exact ⟨(hpackage _).mpr ⟨_, mixedEntry, hlists, hfirst, ⟨rfl, .absent, rfl⟩⟩,
    hothers mixedListing _ _ _ rfl rfl rfl rfl rfl⟩

end Metadata

end EmulationBindings
