import DstServer.Scripts.Bundle

/-!
# What an inspected archive holds

`inspect` returns the digests of the native members of an archive.  This
module says which members these are and that nothing else matters for
them.

* `contentOf` is the content of the member with a name.
* `Accepted` is what an inspection establishes, and `inspect_accepted`
  proves it.  It gives the native table entry by entry: the entrypoint has
  the digest of the blank file whatever the archive holds there, and every
  other name that is neither the manifest's nor in the namespace of the SDK
  has the digest of its content.
* `native_eq` follows: two archives with the same native contents have the
  same native table.
* `inspect_replays` says that an inspection that went through goes through
  again when no call fails.
-/

namespace DstServer.Scripts

open Lib

variable {File : Type} {host : Host File} {entries : List Entry}
  {v w : World (Disk File) Call}

/-! ## Members by name -/

/-- The content of the member with a name. -/
def contentOf (entries : List Entry) (name : String) : Option Bytes :=
  (byName entries name).bind Entry.content

theorem name_of_byName {name : String} {entry : Entry} (h : byName entries name = some entry) :
    entry ∈ entries ∧ entry.name = name :=
  ⟨List.mem_of_find?_eq_some h, by simpa using List.find?_some h⟩

theorem byName_of_mem (hnodup : (entries.map Entry.name).Nodup) {entry : Entry}
    (h : entry ∈ entries) : byName entries entry.name = some entry := by
  cases hfind : byName entries entry.name with
  | none =>
    have hno := List.find?_eq_none.1 hfind entry h
    simp at hno
  | some found =>
    obtain ⟨hmem, hname⟩ := name_of_byName hfind
    rw [List.inj_on_of_nodup_map hnodup hmem h hname]

theorem byName_eq_none {name : String} (h : name ∉ entries.map Entry.name) :
    byName entries name = none := by
  refine List.find?_eq_none.2 ?_
  intro entry hentry hname
  exact h (List.mem_map.2 ⟨entry, hentry, by simpa using hname⟩)

@[simp] theorem owned_manifestName : owned manifestName = false := by decide

theorem entrypoint_ne_manifestName : entrypoint ≠ manifestName := by decide

/-! ## The steps of an inspection -/

theorem readEntry_eq_ok {name : String} {content : Bytes}
    (h : readEntry host entries name w = (.ok content, v)) :
    contentOf entries name = some content := by
  simp only [readEntry, Effect.bind_eq_ok, Effect.look_eq_ok] at h
  obtain ⟨entry, _, ⟨_, hentry, _⟩, _, _, _, found, _, ⟨_, hcontent, _⟩, _, _, _, hpure⟩ := h
  obtain ⟨rfl, _⟩ := Effect.pure_eq_ok.1 hpure
  rw [contentOf, hentry]
  exact hcontent

theorem entryNames_eq_ok {seen names : List String} {total : Nat}
    (h : entryNames host entries seen total w = (.ok names, v)) :
    names = entries.map Entry.name ∧ names.Nodup ∧ ∀ name ∈ names, name ∉ seen := by
  induction entries generalizing seen names total w v with
  | nil =>
    obtain ⟨rfl, _⟩ := Effect.pure_eq_ok.1 h
    simp
  | cons entry rest ih =>
    simp only [entryNames, Effect.bind_eq_ok] at h
    obtain ⟨_, _, _, _, _, hshape, _, _, _, _, _, _, rest', _, hrest, hpure⟩ := h
    obtain ⟨hshape, _⟩ := Effect.ensure_eq_ok.1 hshape
    obtain ⟨rfl, _⟩ := Effect.pure_eq_ok.1 hpure
    obtain ⟨rfl, hnodup, hfresh⟩ := ih hrest
    refine ⟨rfl, List.nodup_cons.2 ⟨?_, hnodup⟩, ?_⟩
    · intro hmem
      exact hfresh _ hmem List.mem_cons_self
    · intro name hname
      rcases List.mem_cons.1 hname with rfl | hname
      · exact hshape.2.1
      · intro hseen
        exact hfresh name hname (List.mem_cons_of_mem _ hseen)

theorem digests_get? {names : List String} {files files' : OrderedMap String String}
    (h : digests host entries names files w = (.ok files', v)) (name : String) :
    files'.get? name =
      if name ∈ names then (contentOf entries name).map host.digest else files.get? name := by
  induction names generalizing files w with
  | nil =>
    obtain ⟨rfl, _⟩ := Effect.pure_eq_ok.1 h
    simp
  | cons first rest ih =>
    simp only [digests, Effect.bind_eq_ok] at h
    obtain ⟨content, _, hread, hrest⟩ := h
    rw [ih hrest, OrderedMap.get?_insert]
    by_cases hfirst : name = first
    · subst hfirst
      simp [readEntry_eq_ok hread]
    · simp [hfirst]

theorem digests_readable {names : List String} {files files' : OrderedMap String String}
    (h : digests host entries names files w = (.ok files', v)) :
    ∀ name ∈ names, ∃ content, contentOf entries name = some content := by
  induction names generalizing files w with
  | nil =>
    intro name hname
    simp at hname
  | cons first rest ih =>
    simp only [digests, Effect.bind_eq_ok] at h
    obtain ⟨content, _, hread, hrest⟩ := h
    intro name hname
    rcases List.mem_cons.1 hname with rfl | hname
    · exact ⟨content, readEntry_eq_ok hread⟩
    · exact ih hrest name hname

theorem readBundleManifest_eq_ok {manifest : Option Manifest}
    (h : readBundleManifest host entries (entries.map Entry.name) w = (.ok manifest, v)) :
    manifest = (contentOf entries manifestName).bind host.readManifest ∧
      (manifest.isSome = true ↔ manifestName ∈ entries.map Entry.name) := by
  unfold readBundleManifest at h
  split at h
  · rename_i hname
    simp only [Effect.bind_eq_ok] at h
    obtain ⟨content, _, hread, manifest', _, hmanifest, _, _, _, hpure⟩ := h
    obtain ⟨rfl, _⟩ := Effect.pure_eq_ok.1 hpure
    obtain ⟨hmanifest, _⟩ := Effect.orError_eq_ok.1 hmanifest
    rw [readEntry_eq_ok hread]
    exact ⟨hmanifest.symm, by simp [hname]⟩
  · rename_i hname
    obtain ⟨rfl, _⟩ := Effect.pure_eq_ok.1 h
    rw [contentOf, byName_eq_none hname]
    exact ⟨rfl, by simp [hname]⟩

/-! ## The result of an inspection -/

section Inspect

variable {expected : Option (Payload × String)} {inspected : Inspected}

/-- What `inspect` has established when it returns. -/
structure Accepted (host : Host File) (entries : List Entry)
    (expected : Option (Payload × String)) (inspected : Inspected) : Prop where
  names : inspected.names = entries.map Entry.name
  nodup : inspected.names.Nodup
  starts : entrypoint ∈ inspected.names
  native : ∀ name, inspected.native.get? name =
    if name = entrypoint then some (host.digest originalEntrypoint)
    else if name ∈ inspected.names ∧ name ≠ manifestName ∧ owned name = false
    then (contentOf entries name).map host.digest else none
  recorded : inspected.manifest = (contentOf entries manifestName).bind host.readManifest
  unmanaged : inspected.manifest = none →
    contentOf entries entrypoint = some originalEntrypoint ∧
      ∀ name ∈ inspected.names, name ≠ manifestName ∧ owned name = false
  managed : ∀ manifest, inspected.manifest = some manifest →
    manifest.sourceDigest = sourceDigest host inspected.native ∧
      (∀ name, name ∈ manifest.sdkFiles ↔ name ∈ inspected.names ∧ owned name = true) ∧
      ∀ payload version, expected = some (payload, version) → manifest.sdkVersion = version

/-- What is known of the table of files when the manifest is looked at. -/
structure Digested (host : Host File) (entries : List Entry) (names : List String)
    (files : OrderedMap String String) : Prop where
  names_eq : names = entries.map Entry.name
  nodup : names.Nodup
  starts : entrypoint ∈ names
  lookup : ∀ name, files.get? name =
    if name ∈ names ∧ name ≠ manifestName then (contentOf entries name).map host.digest else none
  readable : ∀ name ∈ names, name ≠ manifestName →
    ∃ content, contentOf entries name = some content

theorem Digested.mem_keys {names : List String} {files : OrderedMap String String}
    (h : Digested host entries names files) {name : String} :
    name ∈ files.keys ↔ name ∈ names ∧ name ≠ manifestName := by
  rw [OrderedMap.mem_keys_iff]
  constructor
  · rintro ⟨hash, hget⟩
    rw [h.lookup] at hget
    split_ifs at hget with hname
    exact hname
  · intro hname
    obtain ⟨content, hcontent⟩ := h.readable name hname.1 hname.2
    exact ⟨host.digest content, by rw [h.lookup, if_pos hname, hcontent]; rfl⟩

theorem inspectNative_accepted {names : List String} {files : OrderedMap String String}
    (hfiles : Digested host entries names files) (hplain : manifestName ∉ names)
    (hrecorded : none = (contentOf entries manifestName).bind host.readManifest)
    (h : inspectNative host entries names files w = (.ok inspected, v)) :
    Accepted host entries expected inspected := by
  simp only [inspectNative, Effect.bind_eq_ok] at h
  obtain ⟨content, _, hread, _, _, hblank, _, _, howned, hpure⟩ := h
  obtain ⟨rfl, _⟩ := Effect.ensure_eq_ok.1 hblank
  obtain ⟨howned, _⟩ := Effect.ensure_eq_ok.1 howned
  obtain ⟨rfl, _⟩ := Effect.pure_eq_ok.1 hpure
  have hcontent := readEntry_eq_ok hread
  have hfree : ∀ name ∈ names, name ≠ manifestName ∧ owned name = false := by
    intro name hname
    have hne : name ≠ manifestName := fun heq => hplain (heq ▸ hname)
    exact ⟨hne, howned name (hfiles.mem_keys.2 ⟨hname, hne⟩)⟩
  have hlookup : ∀ name, files.get? name =
      if name = entrypoint then some (host.digest originalEntrypoint)
      else if name ∈ names ∧ name ≠ manifestName ∧ owned name = false
      then (contentOf entries name).map host.digest else none := by
    intro name
    rw [hfiles.lookup]
    by_cases hentry : name = entrypoint
    · subst hentry
      rw [if_pos rfl, if_pos ⟨hfiles.starts, entrypoint_ne_manifestName⟩, hcontent]
      rfl
    · rw [if_neg hentry]
      by_cases hname : name ∈ names
      · rw [if_pos ⟨hname, (hfree name hname).1⟩, if_pos ⟨hname, hfree name hname⟩]
      · rw [if_neg (fun hand => hname hand.1), if_neg (fun hand => hname hand.1)]
  exact
    { names := hfiles.names_eq
      nodup := hfiles.nodup
      starts := hfiles.starts
      native := hlookup
      recorded := hrecorded
      unmanaged := fun _ => ⟨hcontent, hfree⟩
      managed := fun _ hmanifest => nomatch hmanifest }

theorem nativeOf_get? {names : List String} {files : OrderedMap String String}
    (hfiles : Digested host entries names files) (name : String) :
    (nativeOf host files).get? name =
      if name = entrypoint then some (host.digest originalEntrypoint)
      else if name ∈ names ∧ name ≠ manifestName ∧ owned name = false
      then (contentOf entries name).map host.digest else none := by
  rw [nativeOf, OrderedMap.get?_insert, OrderedMap.get?_filter, hfiles.lookup]
  by_cases hentry : name = entrypoint
  · rw [if_pos hentry, if_pos hentry]
  · rw [if_neg hentry, if_neg hentry]
    cases howned : owned name with
    | true => simp
    | false => simp

theorem inspectManaged_accepted {names : List String} {files : OrderedMap String String}
    {manifest : Manifest} (hfiles : Digested host entries names files)
    (hrecorded : some manifest = (contentOf entries manifestName).bind host.readManifest)
    (h : inspectManaged host expected names files manifest w = (.ok inspected, v)) :
    Accepted host entries expected inspected := by
  simp only [inspectManaged, Effect.bind_eq_ok] at h
  obtain ⟨_, _, hcontents, _, _, hdigest, _, _, hversion, hpure⟩ := h
  obtain ⟨⟨rfl, _, hdeclared, hactual, _⟩, _⟩ := Effect.ensure_eq_ok.1 hcontents
  obtain ⟨hdigest, _⟩ := Effect.ensure_eq_ok.1 hdigest
  obtain ⟨rfl, _⟩ := Effect.pure_eq_ok.1 hpure
  have hsdk : ∀ name, name ∈ manifest.sdkFiles ↔ name ∈ names ∧ owned name = true := by
    intro name
    have hkeys : name ∈ (manifest.files.filter owned).keys ↔ name ∈ names ∧ owned name = true := by
      rw [OrderedMap.mem_keys_iff]
      simp only [OrderedMap.get?_filter]
      cases howned : owned name with
      | true =>
        have hne : name ≠ manifestName := by
          rintro rfl
          rw [owned_manifestName] at howned
          exact nomatch howned
        simp only [if_true, and_true]
        rw [← OrderedMap.mem_keys_iff, hfiles.mem_keys]
        exact ⟨fun hand => hand.1, fun hname => ⟨hname, hne⟩⟩
      | false => simp
    exact ⟨fun hname => hkeys.1 (hdeclared name hname), fun hname => hactual name (hkeys.2 hname)⟩
  exact
    { names := hfiles.names_eq
      nodup := hfiles.nodup
      starts := hfiles.starts
      native := nativeOf_get? hfiles
      recorded := hrecorded
      unmanaged := fun hmanifest => nomatch hmanifest
      managed := by
        rintro _ ⟨⟩
        refine ⟨hdigest.symm, hsdk, ?_⟩
        rintro payload version rfl
        exact (Effect.ensure_eq_ok.1 hversion).1.2 }

theorem inspect_accepted (h : inspect host entries expected w = (.ok inspected, v)) :
    Accepted host entries expected inspected := by
  simp only [inspect, Effect.bind_eq_ok] at h
  obtain ⟨names, _, hnames, _, _, hstarts, _, _, _, _, _, _, manifest, _, hmanifest, files, _,
    hdigests, hrest⟩ := h
  obtain ⟨rfl, hnodup, _⟩ := entryNames_eq_ok hnames
  obtain ⟨⟨hstarts, _⟩, _⟩ := Effect.ensure_eq_ok.1 hstarts
  have hfiles : Digested host entries (entries.map Entry.name) files :=
    { names_eq := rfl
      nodup := hnodup
      starts := hstarts
      lookup := by
        intro name
        rw [digests_get? hdigests]
        simp only [List.mem_filter, decide_eq_true_eq, OrderedMap.get?_empty]
      readable := by
        intro name hname hne
        exact digests_readable hdigests name (List.mem_filter.2 ⟨hname, by simpa using hne⟩) }
  obtain ⟨hrecorded, hsome⟩ := readBundleManifest_eq_ok hmanifest
  cases manifest with
  | none =>
    have hplain : manifestName ∉ entries.map Entry.name := fun hname => nomatch hsome.2 hname
    exact inspectNative_accepted hfiles hplain hrecorded hrest
  | some manifest => exact inspectManaged_accepted hfiles hrecorded hrest

/-- The native table depends on the native contents only. -/
theorem native_eq {entries' : List Entry} {expected' : Option (Payload × String)}
    {inspected' : Inspected} (h : Accepted host entries expected inspected)
    (h' : Accepted host entries' expected' inspected')
    (hnames : ∀ name, name ≠ entrypoint → name ≠ manifestName → owned name = false →
      (name ∈ inspected.names ↔ name ∈ inspected'.names) ∧
        contentOf entries name = contentOf entries' name) :
    inspected.native = inspected'.native := by
  refine OrderedMap.ext_get? ?_
  intro name
  rw [h.native, h'.native]
  by_cases hentry : name = entrypoint
  · rw [if_pos hentry, if_pos hentry]
  · rw [if_neg hentry, if_neg hentry]
    by_cases hplain : name ≠ manifestName ∧ owned name = false
    · obtain ⟨hmem, hcontent⟩ := hnames name hentry hplain.1 hplain.2
      simp only [hmem, hcontent]
    · rw [if_neg (fun hand => hplain hand.2), if_neg (fun hand => hplain hand.2)]

end Inspect

/-! ## What only looks, and can be repeated -/

theorem readEntry_replays (host : Host File) (entries : List Entry) (name : String) :
    Effect.Replays (readEntry host entries name) (readEntry host.quiet entries name) := by
  refine Effect.replays_bind (Effect.replays_look _ _ _ _) ?_
  intro entry
  refine Effect.replays_bind (Effect.replays_ensure _ _) ?_
  intro _
  refine Effect.replays_bind (Effect.replays_look _ _ _ _) ?_
  intro content
  refine Effect.replays_bind (Effect.replays_ensure _ _) ?_
  intro _
  exact Effect.replays_pure content

theorem entryNames_replays (host : Host File) (entries : List Entry) (seen : List String)
    (total : Nat) :
    Effect.Replays (entryNames host entries seen total)
      (entryNames host.quiet entries seen total) := by
  induction entries generalizing seen total with
  | nil => exact Effect.replays_pure []
  | cons entry rest ih =>
    refine Effect.replays_bind (Effect.replays_look _ _ _ _) ?_
    intro _
    refine Effect.replays_bind (Effect.replays_ensure _ _) ?_
    intro _
    refine Effect.replays_bind (Effect.replays_ensure _ _) ?_
    intro _
    refine Effect.replays_bind (Effect.replays_ensure _ _) ?_
    intro _
    refine Effect.replays_bind (ih (entry.name :: seen) (total + entry.size)) ?_
    intro names
    exact Effect.replays_pure (entry.name :: names)

theorem digests_replays (host : Host File) (entries : List Entry) (names : List String)
    (files : OrderedMap String String) :
    Effect.Replays (digests host entries names files) (digests host.quiet entries names files) := by
  induction names generalizing files with
  | nil => exact Effect.replays_pure files
  | cons name rest ih =>
    refine Effect.replays_bind (readEntry_replays host entries name) ?_
    intro content
    exact ih (files.insert name (host.digest content))

theorem readBundleManifest_replays (host : Host File) (entries : List Entry)
    (names : List String) :
    Effect.Replays (readBundleManifest host entries names)
      (readBundleManifest host.quiet entries names) := by
  unfold readBundleManifest
  split
  · refine Effect.replays_bind (readEntry_replays host entries manifestName) ?_
    intro content
    refine Effect.replays_bind (Effect.replays_orError _ _) ?_
    intro manifest
    refine Effect.replays_bind (Effect.replays_ensure _ _) ?_
    intro _
    exact Effect.replays_pure (some manifest)
  · exact Effect.replays_pure none

theorem inspectNative_replays (host : Host File) (entries : List Entry) (names : List String)
    (files : OrderedMap String String) :
    Effect.Replays (inspectNative host entries names files)
      (inspectNative host.quiet entries names files) := by
  refine Effect.replays_bind (readEntry_replays host entries entrypoint) ?_
  intro content
  refine Effect.replays_bind (Effect.replays_ensure _ _) ?_
  intro _
  refine Effect.replays_bind (Effect.replays_ensure _ _) ?_
  intro _
  exact Effect.replays_pure _

theorem checkInstalled_replays (host : Host File) (expected : Option (Payload × String))
    (files : OrderedMap String String) (manifest : Manifest) :
    Effect.Replays (checkInstalled host expected files manifest)
      (checkInstalled host.quiet expected files manifest) := by
  cases expected with
  | none => exact Effect.replays_pure ()
  | some installed => exact Effect.replays_ensure _ _

theorem inspectManaged_replays (host : Host File) (expected : Option (Payload × String))
    (names : List String) (files : OrderedMap String String) (manifest : Manifest) :
    Effect.Replays (inspectManaged host expected names files manifest)
      (inspectManaged host.quiet expected names files manifest) := by
  refine Effect.replays_bind (Effect.replays_ensure _ _) ?_
  intro _
  refine Effect.replays_bind (Effect.replays_ensure _ _) ?_
  intro _
  refine Effect.replays_bind (checkInstalled_replays host expected files manifest) ?_
  intro _
  exact Effect.replays_pure _

theorem inspect_replays (host : Host File) (entries : List Entry)
    (expected : Option (Payload × String)) :
    Effect.Replays (inspect host entries expected) (inspect host.quiet entries expected) := by
  refine Effect.replays_bind (entryNames_replays host entries [] 0) ?_
  intro names
  refine Effect.replays_bind (Effect.replays_ensure _ _) ?_
  intro _
  refine Effect.replays_bind (readEntry_replays host entries mainName) ?_
  intro source
  refine Effect.replays_bind (Effect.replays_ensure _ _) ?_
  intro _
  refine Effect.replays_bind (readBundleManifest_replays host entries names) ?_
  intro manifest
  refine Effect.replays_bind (digests_replays host entries _ .empty) ?_
  intro files
  cases manifest with
  | none => exact inspectNative_replays host entries names files
  | some manifest => exact inspectManaged_replays host expected names files manifest

theorem validatePayload_replays (payload : Payload) :
    Effect.Replays (validatePayload payload : Io File Unit) (validatePayload payload) := by
  refine Effect.replays_bind (Effect.replays_ensure _ _) ?_
  intro _
  exact Effect.replays_ensure _ _

theorem nativeMembers_replays (host : Host File) (entries : List Entry) (names : List String) :
    Effect.Replays (nativeMembers host entries names) (nativeMembers host.quiet entries names) := by
  induction names with
  | nil => exact Effect.replays_pure []
  | cons name rest ih =>
    refine Effect.replays_bind (Effect.replays_look _ _ _ _) ?_
    intro entry
    refine Effect.replays_bind (Effect.replays_look _ _ _ _) ?_
    intro _
    refine Effect.replays_bind ih ?_
    intro members
    exact Effect.replays_pure _

theorem sdkMembers_replays (host : Host File) (files : List (String × Bytes)) :
    Effect.Replays (sdkMembers host files) (sdkMembers host.quiet files) := by
  induction files with
  | nil => exact Effect.replays_pure []
  | cons e rest ih =>
    refine Effect.replays_bind (Effect.replays_look _ _ _ _) ?_
    intro _
    refine Effect.replays_bind ih ?_
    intro members
    exact Effect.replays_pure _

end DstServer.Scripts
