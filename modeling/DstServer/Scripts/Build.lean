import DstServer.Scripts.Inspect

/-!
# What a build writes, and when

`buildWithPayload` writes a new archive to a temporary file, verifies it
there and renames it to the output.

* `Untouched` is what every run keeps, failed runs included: no path but
  the temporary one changes before a rename goes through.
* `Bundled` relates the members of the bundle to those of its source, and
  `writeBundle_eq_ok` follows a run that went through.
* `build_agrees` puts these together.  A bundle passes verification against
  its source, holds the native members of its source byte for byte and the
  SDK files of its payload and no others, and is as good a source as the
  native archive is.
-/

namespace DstServer.Scripts

open Lib

variable {File : Type} {host : Host File} {entries : List Entry}
  {v w : World (Disk File) Call}

/-! ## A run that fails -/

/-- Until a rename goes through, the files other than the temporary one are
as they were. -/
def Untouched (temporary : Path) (w v : World (Disk File) Call) : Prop :=
  ∃ added, v.calls = w.calls ++ added ∧
    ((Call.persist, true) ∉ added → ∀ path, path ≠ temporary → v.state path = w.state path)

theorem untouched_trans (temporary : Path) (u v w : World (Disk File) Call)
    (h : Untouched temporary u v) (h' : Untouched temporary v w) : Untouched temporary u w := by
  obtain ⟨first, hfirst, hkept⟩ := h
  obtain ⟨second, hsecond, hkept'⟩ := h'
  refine ⟨first ++ second, by rw [hsecond, hfirst, List.append_assoc], ?_⟩
  intro hpersist path hpath
  rw [List.mem_append, not_or] at hpersist
  rw [hkept' hpersist.2 path hpath, hkept hpersist.1 path hpath]

/-- A call that changes at most the temporary file. -/
theorem untouched_call (temporary : Path) (w : World (Disk File) Call) (call : Call × Bool)
    {disk : Disk File} (hdisk : ∀ path, path ≠ temporary → disk path = w.state path) :
    Untouched temporary w ⟨disk, w.calls ++ [call]⟩ :=
  ⟨[call], rfl, fun _ => hdisk⟩

/-- A program that only looks at the disk. -/
theorem within_of_looks (temporary : Path) {α : Type} {m : Io File α}
    (h : Effect.Within Effect.Looks m) : Effect.Within (Untouched temporary) m := by
  intro w
  obtain ⟨hstate, added, hcalls⟩ := h w
  exact ⟨added, hcalls.symm, fun _ path _ => congrFun hstate path⟩

section Within

variable (temporary : Path)

theorem within_seq {α β : Type} {m : Io File α} {f : α → Io File β}
    (hm : Effect.Within (Untouched temporary) m)
    (hf : ∀ a, Effect.Within (Untouched temporary) (f a)) :
    Effect.Within (Untouched temporary) (m >>= f) :=
  Effect.within_bind (untouched_trans temporary) hm hf

theorem within_read {α : Type} (fails : Nat → Bool) (call : Call) (message : String)
    (read : Disk File → Option α) :
    Effect.Within (Untouched temporary) (Effect.look fails call message read) :=
  within_of_looks temporary (Effect.within_looks_look fails call message read)

/-- A call that writes the temporary file only. -/
theorem within_write (fails : Nat → Bool) (call : Call) (message : String)
    {act : Disk File → Option (Unit × Disk File)}
    (h : ∀ disk disk', act disk = some ((), disk') →
      ∀ path, path ≠ temporary → disk' path = disk path) :
    Effect.Within (Untouched temporary) (Effect.call fails call message act) := by
  refine Effect.within_call (fun w => untouched_call temporary w _ fun _ _ => rfl) ?_
  intro w _ disk hact
  exact untouched_call temporary w _ (h w.state disk hact)

/-- The rename itself promises nothing. -/
theorem within_persist (fails : Nat → Bool) (message : String)
    (act : Disk File → Option (Unit × Disk File)) :
    Effect.Within (Untouched temporary) (Effect.call fails .persist message act) := by
  refine Effect.within_call (fun w => untouched_call temporary w _ fun _ _ => rfl) ?_
  intro w _ disk _
  exact ⟨[(.persist, true)], rfl, fun hpersist => absurd List.mem_cons_self hpersist⟩

theorem looks_openArchive (path : Path) :
    Effect.Within Effect.Looks (openArchive host path) :=
  Effect.within_looks_look _ _ _ _

theorem looks_verify (path : Path) (payload : Payload) (version : String) :
    Effect.Within Effect.Looks (verifyWithPayload host path none payload version) := by
  refine Effect.within_bind Effect.looks_trans (looks_openArchive path) ?_
  intro entries
  refine Effect.within_bind Effect.looks_trans (inspect_replays host entries _).looks ?_
  intro inspected
  refine Effect.within_bind Effect.looks_trans (Effect.replays_orError _ _).looks ?_
  intro manifest
  exact Effect.within_pure Effect.looks_refl _

theorem within_writeBundle (entries : List Entry) (inspected : Inspected) (output : Path)
    (payload : Payload) (version : String) :
    Effect.Within (Untouched temporary)
      (writeBundle host entries inspected output temporary payload version) := by
  refine within_seq temporary (within_of_looks temporary (nativeMembers_replays host entries _).looks) ?_
  intro native
  refine within_seq temporary (within_of_looks temporary (sdkMembers_replays host _).looks) ?_
  intro sdk
  refine within_seq temporary (within_read temporary _ _ _ _) ?_
  intro _
  refine within_seq temporary (within_write temporary _ _ _ ?_) ?_
  · intro disk disk' hact path hpath
    simp only [Option.map_eq_some_iff, Prod.mk.injEq] at hact
    obtain ⟨file, _, _, rfl⟩ := hact
    exact Function.update_of_ne hpath _ _
  intro _
  refine within_seq temporary (within_read temporary _ _ _ _) ?_
  intro _
  refine within_seq temporary (within_read temporary _ _ _ _) ?_
  intro _
  refine within_seq temporary (within_of_looks temporary (looks_verify temporary payload version)) ?_
  intro result
  refine within_seq temporary (within_persist temporary _ _ _) ?_
  intro _
  refine within_seq temporary (within_read temporary _ _ _ _) ?_
  intro _
  exact within_of_looks temporary (Effect.within_pure Effect.looks_refl _)

end Within

/-- The temporary file of an output. -/
def temporaryOf (host : Host File) (output : Path) : Path :=
  temporaryPath host output.parent (output.filename.getD "")

/-- The temporary file has a longer name than the output. -/
theorem ne_temporaryOf (host : Host File) (output : Path) : output ≠ temporaryOf host output := by
  intro heq
  have hname := congrArg Path.filename heq
  cases hfilename : output.filename with
  | none =>
    rw [hfilename] at hname
    exact nomatch hname
  | some filename =>
    rw [hfilename] at hname
    have htext : filename = "." ++ (some filename).getD "" ++ "." ++ host.random ++ ".tmp" := by
      simpa [temporaryOf, temporaryPath, hfilename] using hname
    have hlength := congrArg String.length htext
    simp only [String.length_append, Option.getD_some] at hlength
    have hdot : ".".length = 1 := by decide
    omega

theorem build_untouched (host : Host File) (source output : Path) (payload : Payload)
    (version : String) :
    Effect.Within (Untouched (temporaryOf host output))
      (buildWithPayload host source output payload version) := by
  refine within_seq _ (within_of_looks _ (validatePayload_replays payload).looks) ?_
  intro _
  refine within_seq _ (within_read _ _ _ _ _) ?_
  intro entries
  refine within_seq _ (within_of_looks _ (inspect_replays host entries none).looks) ?_
  intro inspected
  cases hname : output.filename with
  | none => exact within_of_looks _ (Effect.within_fail Effect.looks_refl _)
  | some filename =>
    have htemporary : temporaryOf host output = temporaryPath host output.parent filename := by
      rw [temporaryOf, hname]
      rfl
    rw [htemporary]
    simp only [Effect.orError_some_bind]
    refine within_seq _ (within_read _ _ _ _ _) ?_
    intro _
    refine Effect.within_cleanup (untouched_trans _) (within_writeBundle _ _ _ _ _ _) ?_
    intro w
    refine ⟨[], by simp, ?_⟩
    intro _ path hpath
    exact Function.update_of_ne hpath _ _

/-! ## The members of a bundle -/

/-- The member belongs to the native scripts. -/
def isNative (entry : Entry) : Bool := entry.name ≠ manifestName ∧ owned entry.name = false

theorem isNative_iff {entry : Entry} :
    isNative entry = true ↔ entry.name ≠ manifestName ∧ owned entry.name = false :=
  decide_eq_true_iff

/-- The members that belong to the native scripts. -/
def nativeEntries (entries : List Entry) : List Entry := entries.filter isNative

/-- The members that belong to the SDK. -/
def sdkEntries (entries : List Entry) : List Entry :=
  entries.filter fun entry => owned entry.name

theorem nativeEntries_append (first second : List Entry) :
    nativeEntries (first ++ second) = nativeEntries first ++ nativeEntries second :=
  List.filter_append ..

theorem sdkEntries_append (first second : List Entry) :
    sdkEntries (first ++ second) = sdkEntries first ++ sdkEntries second :=
  List.filter_append ..

/-- The native member as the bundle has it: the entrypoint starts the SDK,
and any other is copied. -/
def bundled (entry : Entry) : Entry :=
  if entry.name = entrypoint then (Member.replaced entry bootstrap).entry else entry

@[simp] theorem bundled_name (entry : Entry) : (bundled entry).name = entry.name := by
  unfold bundled
  split
  · rfl
  · rfl

theorem bundled_idem (entry : Entry) : bundled (bundled entry) = bundled entry := by
  by_cases hname : entry.name = entrypoint
  · simp [bundled, hname, Member.entry]
  · simp [bundled, hname]

/-- The members of a bundle: those of its native source and the files of
its payload, and the manifest. -/
structure Bundled (original : List Entry) (payload : Payload) (built : List Entry) : Prop where
  native : nativeEntries built = (nativeEntries original).map bundled
  sdk : sdkEntries built = payload.entries.map fun e => (Member.created e.1 e.2).entry
  other : ∀ entry ∈ built, entry ∈ nativeEntries built ∨ entry ∈ sdkEntries built ∨
    entry.name = manifestName

/-- What the ZIP library writes it reads back. -/
def Host.Faithful (host : Host File) : Prop :=
  ∀ members file entries, host.finish members = some file → host.records file = some entries →
    entries = members.map Member.entry

/-- What the builder asks for is what the bundle has. -/
theorem written_entry (entry : Entry) :
    (if entry.name = entrypoint then Member.replaced entry bootstrap
      else Member.copied entry).entry = bundled entry := by
  unfold bundled
  split
  · rfl
  · rfl

theorem nativeMembers_eq_ok {names : List String} {members : List Member}
    (h : nativeMembers host entries names w = (.ok members, v)) :
    members.map (fun member => some member.entry) =
      names.map fun name => (byName entries name).map bundled := by
  induction names generalizing members w v with
  | nil =>
    obtain ⟨rfl, _⟩ := Effect.pure_eq_ok.1 h
    rfl
  | cons name rest ih =>
    simp only [nativeMembers, Effect.bind_eq_ok, Effect.look_eq_ok] at h
    obtain ⟨entry, _, ⟨_, hentry, _⟩, _, _, _, members', _, hrest, hpure⟩ := h
    obtain ⟨rfl, _⟩ := Effect.pure_eq_ok.1 hpure
    obtain ⟨_, rfl⟩ := name_of_byName hentry
    rw [List.map_cons, List.map_cons, ih hrest, hentry, written_entry]
    rfl

theorem sdkMembers_eq_ok {files : List (String × Bytes)} {members : List Member}
    (h : sdkMembers host files w = (.ok members, v)) :
    members = files.map fun e => .created e.1 e.2 := by
  induction files generalizing members w v with
  | nil =>
    obtain ⟨rfl, _⟩ := Effect.pure_eq_ok.1 h
    rfl
  | cons e rest ih =>
    obtain ⟨name, content⟩ := e
    simp only [sdkMembers, Effect.bind_eq_ok] at h
    obtain ⟨_, _, _, members', _, hrest, hpure⟩ := h
    obtain ⟨rfl, _⟩ := Effect.pure_eq_ok.1 hpure
    rw [ih hrest]
    rfl

/-- Looking up the names of the native members gives these members. -/
theorem map_byName (hnodup : (entries.map Entry.name).Nodup) :
    (((entries.map Entry.name).filter fun name => name ≠ manifestName ∧ owned name = false).map
      fun name => (byName entries name).map bundled) =
      (nativeEntries entries).map fun entry => some (bundled entry) := by
  rw [List.filter_map, List.map_map]
  show (nativeEntries entries).map _ = _
  refine List.map_congr_left ?_
  intro entry hentry
  have hmem : entry ∈ entries := (List.mem_filter.1 hentry).1
  show (byName entries entry.name).map bundled = some (bundled entry)
  rw [byName_of_mem hnodup hmem]
  rfl

/-- The three parts of a written archive. -/
theorem bundled_of_parts {original : List Entry} {payload : Payload}
    (howned : ∀ name ∈ payload.keys, owned name = true) {manifest : Entry}
    (hmanifest : manifest.name = manifestName) :
    Bundled original payload
      ((nativeEntries original).map bundled ++
        payload.entries.map (fun e => (Member.created e.1 e.2).entry) ++ [manifest]) := by
  have hnative : ∀ entry ∈ (nativeEntries original).map bundled, isNative entry = true := by
    intro entry hentry
    obtain ⟨source, hsource, rfl⟩ := List.mem_map.1 hentry
    rw [isNative_iff, bundled_name]
    exact isNative_iff.1 (List.mem_filter.1 hsource).2
  have hsdk : ∀ entry ∈ payload.entries.map (fun e => (Member.created e.1 e.2).entry),
      owned entry.name = true := by
    intro entry hentry
    obtain ⟨e, he, rfl⟩ := List.mem_map.1 hentry
    exact howned e.1 (List.mem_map.2 ⟨e, he, rfl⟩)
  have hnativeParts : nativeEntries ((nativeEntries original).map bundled ++
      payload.entries.map (fun e => (Member.created e.1 e.2).entry) ++ [manifest]) =
      (nativeEntries original).map bundled := by
    have hsecond : nativeEntries (payload.entries.map fun e => (Member.created e.1 e.2).entry) =
        [] := by
      refine List.filter_eq_nil_iff.2 ?_
      intro entry hentry
      simp [isNative_iff, hsdk entry hentry]
    have hthird : nativeEntries [manifest] = [] := by
      simp [nativeEntries, isNative, hmanifest]
    have hfirst : nativeEntries ((nativeEntries original).map bundled) =
        (nativeEntries original).map bundled := List.filter_eq_self.2 hnative
    rw [nativeEntries_append, nativeEntries_append, hfirst, hsecond, hthird, List.append_nil,
      List.append_nil]
  have hsdkParts : sdkEntries ((nativeEntries original).map bundled ++
      payload.entries.map (fun e => (Member.created e.1 e.2).entry) ++ [manifest]) =
      payload.entries.map fun e => (Member.created e.1 e.2).entry := by
    have hfirst : sdkEntries ((nativeEntries original).map bundled) = [] := by
      refine List.filter_eq_nil_iff.2 ?_
      intro entry hentry
      simp [(isNative_iff.1 (hnative entry hentry)).2]
    have hsecond : sdkEntries (payload.entries.map fun e => (Member.created e.1 e.2).entry) =
        payload.entries.map fun e => (Member.created e.1 e.2).entry :=
      List.filter_eq_self.2 hsdk
    have hthird : sdkEntries [manifest] = [] := by
      simp [sdkEntries, hmanifest]
    rw [sdkEntries_append, sdkEntries_append, hfirst, hsecond, hthird, List.nil_append,
      List.append_nil]
  refine ⟨hnativeParts, hsdkParts, ?_⟩
  intro entry hentry
  rw [hnativeParts, hsdkParts]
  rcases List.mem_append.1 hentry with hentry | hentry
  · rcases List.mem_append.1 hentry with hentry | hentry
    · exact Or.inl hentry
    · exact Or.inr (Or.inl hentry)
  · rw [List.mem_singleton.1 hentry]
    exact Or.inr (Or.inr hmanifest)

/-! ## A run that goes through -/

theorem openArchive_eq_ok {path : Path} {found : List Entry}
    (h : openArchive host path w = (.ok found, v)) :
    ∃ file, w.state path = some file ∧ openZip host file = some found ∧ v.state = w.state := by
  obtain ⟨_, hread, hstate, _⟩ := Effect.look_eq_ok.1 h
  obtain ⟨file, hfile, hopen⟩ := Option.bind_eq_some_iff.1 hread
  exact ⟨file, hfile, hopen, hstate⟩

theorem openArchive_quiet {path : Path} {file : File} {found : List Entry}
    (hfile : w.state path = some file) (hopen : openZip host file = some found) :
    ∃ v, openArchive host.quiet path w = (.ok found, v) ∧ v.state = w.state := by
  refine ⟨⟨w.state, w.calls ++ [(.openArchive path, true)]⟩, ?_, rfl⟩
  refine Effect.look_eq_ok.2 ⟨rfl, ?_, rfl, rfl⟩
  rw [hfile]
  exact hopen

/-- What `writeBundle` has done when it returns. -/
theorem writeBundle_eq_ok {inspected : Inspected} {output temporary : Path} {payload : Payload}
    {version : String} {result : ScriptBundle Path}
    (h : writeBundle host entries inspected output temporary payload version w = (.ok result, v)) :
    ∃ native sdk file u u' bundle,
      native.map (fun member => some member.entry) =
        (inspected.names.filter fun name => name ≠ manifestName ∧ owned name = false).map
          (fun name => (byName entries name).map bundled) ∧
      sdk = payload.entries.map (fun e => Member.created e.1 e.2) ∧
      host.finish (native ++ sdk ++ [.created manifestName
        (host.manifestJson (bundleManifest host inspected.native payload version) ++
          "\n".toUTF8.data.toList)]) = some file ∧
      u.state temporary = some file ∧
      verifyWithPayload host temporary none payload version u = (.ok bundle, u') ∧
      v.state output = some file ∧
      result = { bundle with path := output } := by
  simp only [writeBundle, Effect.bind_eq_ok] at h
  obtain ⟨native, _, hnative, sdk, _, hsdk, _, _, _, _, w₁, hfinish, _, w₂, hpermissions, _, w₃,
    hsync, bundle, w₄, hverify, _, w₅, hpersist, _, w₆, hparent, hpure⟩ := h
  obtain ⟨_, hact, _⟩ := Effect.call_eq_ok.1 hfinish
  simp only [Option.map_eq_some_iff, Prod.mk.injEq] at hact
  obtain ⟨file, hfile, _, hstate⟩ := hact
  obtain ⟨_, _, hstate₂, _⟩ := Effect.look_eq_ok.1 hpermissions
  obtain ⟨_, _, hstate₃, _⟩ := Effect.look_eq_ok.1 hsync
  have htemporary : w₃.state temporary = some file := by
    rw [hstate₃, hstate₂, ← hstate, Function.update_self]
  have hstate₄ : w₄.state = w₃.state := by
    have hlooks : Effect.Looks w₃ (verifyWithPayload host temporary none payload version w₃).2 :=
      looks_verify temporary payload version w₃
    rw [hverify] at hlooks
    exact hlooks.1
  obtain ⟨_, hrename, _⟩ := Effect.call_eq_ok.1 hpersist
  simp only [Option.map_eq_some_iff, Prod.mk.injEq] at hrename
  obtain ⟨moved, hmoved, _, hstate₅⟩ := hrename
  rw [hstate₄, htemporary] at hmoved
  cases hmoved
  obtain ⟨_, _, hstate₆, _⟩ := Effect.look_eq_ok.1 hparent
  obtain ⟨rfl, rfl⟩ := Effect.pure_eq_ok.1 hpure
  refine ⟨native, sdk, file, w₃, w₄, bundle, nativeMembers_eq_ok hnative, sdkMembers_eq_ok hsdk,
    hfile, htemporary, hverify, ?_, rfl⟩
  rw [hstate₆, ← hstate₅, Function.update_self]

/-! ### Contents by name -/

theorem isSome_byName {name : String} :
    (byName entries name).isSome = true ↔ name ∈ entries.map Entry.name := by
  unfold byName
  rw [List.find?_isSome, List.mem_map]
  simp

theorem byName_native {name : String} (hname : name ≠ manifestName ∧ owned name = false) :
    byName (nativeEntries entries) name = byName entries name := by
  unfold byName nativeEntries
  rw [List.find?_filter]
  congr 1
  funext entry
  by_cases heq : entry.name = name
  · subst heq
    simp [isNative_iff, hname]
  · simp [heq]

theorem byName_map_bundled (name : String) :
    byName (entries.map bundled) name = (byName entries name).map bundled := by
  unfold byName
  rw [List.find?_map]
  congr 2
  funext entry
  show decide ((bundled entry).name = name) = decide (entry.name = name)
  rw [bundled_name]

/-- The bundle has the same native members as its source, with the same
contents but for the entrypoint. -/
theorem Bundled.contentOf_eq {original built : List Entry} {payload : Payload}
    (h : Bundled original payload built) {name : String} (hentry : name ≠ entrypoint)
    (hmanifest : name ≠ manifestName) (howned : owned name = false) :
    (name ∈ built.map Entry.name ↔ name ∈ original.map Entry.name) ∧
      contentOf built name = contentOf original name := by
  have hlookup : byName built name = (byName original name).map bundled := by
    rw [← byName_native ⟨hmanifest, howned⟩, h.native, byName_map_bundled,
      byName_native ⟨hmanifest, howned⟩]
  refine ⟨?_, ?_⟩
  · rw [← isSome_byName, ← isSome_byName, hlookup, Option.isSome_map]
  · unfold contentOf
    rw [hlookup]
    cases hfind : byName original name with
    | none => rfl
    | some entry =>
      obtain ⟨_, hname⟩ := name_of_byName hfind
      have hcopied : bundled entry = entry := by
        unfold bundled
        rw [if_neg (hname ▸ hentry)]
      show (bundled entry).content = entry.content
      rw [hcopied]

/-! ### The bundle that is left behind -/

/-- What a build has done when it returns: where the source and the bundle
are, what they hold and what was found in them. -/
structure Finished (host : Host File) (source output : Path) (payload : Payload)
    (version : String) (w v : World (Disk File) Call) (result : ScriptBundle Path)
    (file₀ file : File) (original built : List Entry) (inspected : Inspected) : Prop where
  found : w.state source = some file₀
  opened : openZip host file₀ = some original
  written : v.state output = some file
  reopened : openZip host file = some built
  holds : Bundled original payload built
  accepted : Accepted host original none inspected
  inspection : ∃ u u', inspect host original none u = (.ok inspected, u')
  verification : ∃ u u' bundle temporary, u.state temporary = some file ∧
    verifyWithPayload host temporary none payload version u = (.ok bundle, u') ∧
    result = { bundle with path := output }

theorem build_eq_ok (hfaithful : host.Faithful) {source output : Path} {payload : Payload}
    {version : String} {result : ScriptBundle Path}
    (h : buildWithPayload host source output payload version w = (.ok result, v)) :
    ∃ file₀ file original built inspected,
      Finished host source output payload version w v result file₀ file original built
        inspected := by
  simp only [buildWithPayload, Effect.bind_eq_ok] at h
  obtain ⟨_, w₁, hvalid, original, w₂, hopen, inspected, w₃, hinspect, filename, w₄, _, _, w₅, _,
    hwrite⟩ := h
  have howned : ∀ name ∈ payload.keys, owned name = true := by
    simp only [validatePayload, Effect.bind_eq_ok] at hvalid
    obtain ⟨_, _, howned, _⟩ := hvalid
    exact (Effect.ensure_eq_ok.1 howned).1
  have hstate₁ : w₁.state = w.state := (validatePayload_replays payload).state_eq hvalid
  obtain ⟨file₀, hfile₀, hopened, _⟩ := openArchive_eq_ok hopen
  have haccepted := inspect_accepted hinspect
  obtain ⟨native, sdk, file, u, u', bundle, hnative, hsdk, hfinish, htemporary, hverify, houtput,
    rfl⟩ := writeBundle_eq_ok (Effect.cleanup_eq_ok.1 hwrite)
  have hreopened : ∃ built, openZip host file = some built := by
    simp only [verifyWithPayload, Effect.bind_eq_ok] at hverify
    obtain ⟨built, _, hopen', _⟩ := hverify
    obtain ⟨file', hfile', hopened', _⟩ := openArchive_eq_ok hopen'
    rw [htemporary] at hfile'
    cases hfile'
    exact ⟨built, hopened'⟩
  obtain ⟨built, hreopened⟩ := hreopened
  have hrecords : host.records file = some built := by
    unfold openZip at hreopened
    split at hreopened
    · exact (Option.filter_eq_some_iff.1 hreopened).1
    · cases hreopened
  have hentries : native.map Member.entry = (nativeEntries original).map bundled := by
    rw [haccepted.names, map_byName (haccepted.names ▸ haccepted.nodup)] at hnative
    have hsome := congrArg (List.map (Option.getD · ⟨"", 0, false, false, .stored, none⟩)) hnative
    simpa [List.map_map, Function.comp_def] using hsome
  have hbuilt := hfaithful _ _ _ hfinish hrecords
  rw [List.map_append, List.map_append, hentries, hsdk, List.map_map] at hbuilt
  refine ⟨file₀, file, original, built, inspected, ?_⟩
  exact
    { found := by rw [← hstate₁]; exact hfile₀
      opened := hopened
      written := houtput
      reopened := hreopened
      holds := by rw [hbuilt]; exact bundled_of_parts howned rfl
      accepted := haccepted
      inspection := ⟨w₂, w₃, hinspect⟩
      verification := ⟨u, u', bundle, _, htemporary, hverify, rfl⟩ }

section Finished

variable {source output : Path} {payload : Payload} {version : String}
  {result : ScriptBundle Path} {file₀ file : File} {original built : List Entry}
  {inspected : Inspected}

/-- What was found in the bundle when it was verified. -/
theorem Finished.bundle (h : Finished host source output payload version w v result file₀ file
    original built inspected) :
    ∃ found manifest, Accepted host built (some (payload, version)) found ∧
      found.manifest = some manifest ∧ found.native = inspected.native ∧
      (∃ u u', inspect host built (some (payload, version)) u = (.ok found, u')) ∧
      result =
        { path := output
          sdkVersion := manifest.sdkVersion
          sourceDigest := manifest.sourceDigest
          nativeFiles := found.native.keys.length
          sdkFiles := manifest.sdkFiles.length
          entrypoint := entrypoint } := by
  obtain ⟨u, u', bundle, temporary, htemporary, hverify, rfl⟩ := h.verification
  simp only [verifyWithPayload, Effect.bind_eq_ok] at hverify
  obtain ⟨entries, u₁, hopen, found, u₂, hinspect, manifest, u₃, hmanifest, _, u₄, _, hpure⟩ :=
    hverify
  obtain ⟨file', hfile', hopened, _⟩ := openArchive_eq_ok hopen
  rw [htemporary] at hfile'
  cases hfile'
  rw [h.reopened] at hopened
  cases hopened
  obtain ⟨hmanifest, _⟩ := Effect.orError_eq_ok.1 hmanifest
  obtain ⟨rfl, _⟩ := Effect.pure_eq_ok.1 hpure
  have haccepted := inspect_accepted hinspect
  refine ⟨found, manifest, haccepted, hmanifest, ?_, ⟨u₁, u₂, hinspect⟩, rfl⟩
  refine native_eq haccepted h.accepted ?_
  intro name hentry hname howned
  rw [haccepted.names, h.accepted.names]
  exact h.holds.contentOf_eq hentry hname howned

/-- A finished bundle passes verification against its source, wherever the
two files are. -/
theorem Finished.verifies (h : Finished host source output payload version w v result file₀ file
    original built inspected) {e : World (Disk File) Call} {source' : Path}
    (houtput : e.state output = some file) (hsource : e.state source' = some file₀) :
    ∃ e', verifyWithPayload host.quiet output (some source') payload version e =
      (.ok result, e') := by
  obtain ⟨found, manifest, _, hmanifest, hnative, ⟨u, u', hinspect⟩, rfl⟩ := h.bundle
  obtain ⟨e₁, hopen, hstate₁⟩ := openArchive_quiet houtput h.reopened
  obtain ⟨e₂, hinspect₂, hstate₂⟩ :=
    (inspect_replays host built (some (payload, version))).repeats u found u' hinspect e₁
  have hsource₂ : e₂.state source' = some file₀ := by rw [hstate₂, hstate₁, hsource]
  obtain ⟨e₃, hopen₃, _⟩ := openArchive_quiet hsource₂ h.opened
  obtain ⟨t, t', hinspect₀⟩ := h.inspection
  obtain ⟨e₄, hinspect₄, _⟩ :=
    (inspect_replays host original none).repeats t inspected t' hinspect₀ e₃
  have hcheck : checkSource host.quiet (some source') found e₂ = (.ok (), e₄) := by
    refine Effect.bind_eq_ok.2 ⟨original, e₃, hopen₃, ?_⟩
    refine Effect.bind_eq_ok.2 ⟨inspected, e₄, hinspect₄, ?_⟩
    exact Effect.ensure_eq_ok.2 ⟨hnative, rfl⟩
  refine ⟨e₄, ?_⟩
  refine Effect.bind_eq_ok.2 ⟨built, e₁, hopen, ?_⟩
  refine Effect.bind_eq_ok.2 ⟨found, e₂, hinspect₂, ?_⟩
  refine Effect.bind_eq_ok.2 ⟨manifest, e₂, Effect.orError_eq_ok.2 ⟨hmanifest, rfl⟩, ?_⟩
  refine Effect.bind_eq_ok.2 ⟨(), e₄, hcheck, ?_⟩
  exact Effect.pure_eq_ok.2 ⟨rfl, rfl⟩

/-- The source digest of a bundle is the one of the native table of its
source. -/
theorem Finished.sourceDigest_eq (h : Finished host source output payload version w v result
    file₀ file original built inspected) :
    result.sourceDigest = sourceDigest host inspected.native := by
  obtain ⟨found, manifest, haccepted, hmanifest, hnative, _, rfl⟩ := h.bundle
  rw [← hnative]
  exact (haccepted.managed manifest hmanifest).1

/-- It is also the one that the manifest of a managed source names. -/
theorem Finished.sourceDigest_managed (h : Finished host source output payload version w v result
    file₀ file original built inspected) {content : Bytes} {manifest : Manifest}
    (hcontent : contentOf original manifestName = some content)
    (hmanifest : host.readManifest content = some manifest) :
    result.sourceDigest = manifest.sourceDigest := by
  have hrecorded := h.accepted.recorded
  rw [hcontent, Option.bind_some, hmanifest] at hrecorded
  rw [h.sourceDigest_eq]
  exact (h.accepted.managed manifest hrecorded).1.symm

/-- A source that is no bundle is native throughout. -/
theorem Finished.native_all (h : Finished host source output payload version w v result file₀ file
    original built inspected) (hplain : manifestName ∉ original.map Entry.name) :
    nativeEntries original = original := by
  have hmanifest : inspected.manifest = none := by
    rw [h.accepted.recorded, contentOf, byName_eq_none hplain]
    rfl
  refine List.filter_eq_self.2 ?_
  intro entry hentry
  refine isNative_iff.2 ((h.accepted.unmanaged hmanifest).2 entry.name ?_)
  rw [h.accepted.names]
  exact List.mem_map_of_mem hentry

/-- What is accepted does not depend on the occasion. -/
theorem Accepted.now {fails : Nat → Bool} {random : String}
    {expected : Option (Payload × String)}
    (h : Accepted (host.later fails random) entries expected inspected) :
    Accepted host entries expected inspected where
  names := h.names
  nodup := h.nodup
  starts := h.starts
  native := h.native
  recorded := h.recorded
  unmanaged := h.unmanaged
  managed := h.managed

/-- A bundle is as good a source as the one it was built from. -/
theorem Finished.again (h : Finished host source output payload version w v result file₀ file
    original built inspected) {fails : Nat → Bool} {random : String} {e e' : World (Disk File) Call}
    {path output' : Path} {payload' : Payload} {version' : String} {result' : ScriptBundle Path}
    {file' : File} {built' original' : List Entry} {inspected' : Inspected}
    (h' : Finished (host.later fails random) path output' payload' version' e e' result' file file'
      original' built' inspected') :
    result'.sourceDigest = result.sourceDigest ∧ result'.nativeFiles = result.nativeFiles ∧
      Bundled original payload' built' := by
  have hopened : some built = some original' := h.reopened.symm.trans h'.opened
  cases hopened
  have hnative : inspected'.native = inspected.native := by
    refine native_eq h'.accepted.now h.accepted ?_
    intro name hentry hname howned
    rw [h'.accepted.names, h.accepted.names]
    exact h.holds.contentOf_eq hentry hname howned
  refine ⟨?_, ?_, ?_⟩
  · rw [h.sourceDigest_eq, h'.sourceDigest_eq, hnative]
    rfl
  · obtain ⟨found, _, _, _, hfound, _, rfl⟩ := h.bundle
    obtain ⟨found', _, _, _, hfound', _, rfl⟩ := h'.bundle
    show found'.native.keys.length = found.native.keys.length
    rw [hfound, hfound', hnative]
  · have hmembers : nativeEntries built' = (nativeEntries original).map bundled := by
      rw [h'.holds.native, h.holds.native, List.map_map]
      refine List.map_congr_left ?_
      intro entry _
      exact bundled_idem entry
    exact ⟨hmembers, h'.holds.sdk, h'.holds.other⟩

end Finished

/-! ## Building and verifying agree -/

/-- Building a bundle agrees with verifying it.  When the build returns, the
archive it leaves behind passes verification against the source; it holds
the native members of the source with the entrypoint replaced, the SDK
files of the payload and the manifest, and nothing else; a source without a
manifest is native throughout, and a managed one keeps its source digest; and a second build from the bundle, at whatever
SDK, again holds the native members of the first source and only its own
SDK files, with the same source digest.  When the build fails before the
rename goes through, the output is as it was. -/
theorem build_agrees (hfaithful : host.Faithful) {source output : Path} {payload : Payload}
    {version : String} {outcome : Except String (ScriptBundle Path)}
    (h : buildWithPayload host source output payload version w = (outcome, v)) :
    (∀ result, outcome = .ok result →
      ∃ file₀ file original built,
        w.state source = some file₀ ∧ openZip host file₀ = some original ∧
        v.state output = some file ∧ openZip host file = some built ∧
        (∀ (e : World (Disk File) Call) (source' : Path),
          e.state output = some file → e.state source' = some file₀ →
          ∃ e', verifyWithPayload host.quiet output (some source') payload version e =
            (.ok result, e')) ∧
        Bundled original payload built ∧
        (manifestName ∉ original.map Entry.name → nativeEntries original = original) ∧
        (∀ content manifest, contentOf original manifestName = some content →
          host.readManifest content = some manifest →
          result.sourceDigest = manifest.sourceDigest) ∧
        ∀ fails random (e e' : World (Disk File) Call) path output' payload' version' result',
          e.state path = some file →
          buildWithPayload (host.later fails random) path output' payload' version' e =
            (.ok result', e') →
          result'.sourceDigest = result.sourceDigest ∧
            result'.nativeFiles = result.nativeFiles ∧
            ∃ file' built', e'.state output' = some file' ∧
              openZip host file' = some built' ∧ Bundled original payload' built') ∧
      ∀ message, outcome = .error message →
        ∃ added, v.calls = w.calls ++ added ∧
          ((Call.persist, true) ∉ added → v.state output = w.state output) := by
  refine ⟨?_, ?_⟩
  · rintro result rfl
    obtain ⟨file₀, file, original, built, inspected, hdone⟩ := build_eq_ok hfaithful h
    refine ⟨file₀, file, original, built, hdone.found, hdone.opened, hdone.written,
      hdone.reopened, fun e source' houtput hsource => hdone.verifies houtput hsource,
      hdone.holds, hdone.native_all, fun content manifest hcontent hmanifest =>
        hdone.sourceDigest_managed hcontent hmanifest, ?_⟩
    intro fails random e e' path output' payload' version' result' hpath hagain
    have hfaithful' : (host.later fails random).Faithful := hfaithful
    obtain ⟨file₁, file', original', built', inspected', hdone'⟩ := build_eq_ok hfaithful' hagain
    have hsame : some file = some file₁ := hpath.symm.trans hdone'.found
    cases hsame
    obtain ⟨hdigest, hcount, hbundled⟩ := hdone.again hdone'
    exact ⟨hdigest, hcount, file', built', hdone'.written, hdone'.reopened, hbundled⟩
  · intro message _
    obtain ⟨added, hcalls, hkept⟩ := build_untouched host source output payload version w
    rw [h] at hcalls hkept
    refine ⟨added, hcalls, ?_⟩
    intro hpersist
    exact hkept hpersist output (ne_temporaryOf host output)

/-! ### A build of three native files -/

def sampleSource : List Entry :=
  [(Member.created mainName "require 'globalvariableoverrides'\n".toUTF8.data.toList).entry,
    (Member.created entrypoint originalEntrypoint).entry,
    (Member.created "scripts/native.lua" "return 1\n".toUTF8.data.toList).entry]

def samplePayload : Payload := .ofList (requiredFiles.map fun name => (name, "\n".toUTF8.data.toList))

def sampleDigest (content : Bytes) : String :=
  toString (content.foldl (fun n byte => (257 * n + byte.toNat + 1) % 1000003) 0)

/-- A JSON string without anything to escape. -/
def quoted (text : String) : String := "\"" ++ text ++ "\""

def sampleFilesJson (files : OrderedMap String String) : String :=
  "\x7b" ++ ",".intercalate (files.entries.map fun e => quoted e.1 ++ ":" ++ quoted e.2) ++ "\x7d"

def sampleManifestJson (manifest : Manifest) : String :=
  "\x7b\"format\":" ++ toString manifest.format ++ ",\"sdk_version\":" ++ quoted manifest.sdkVersion ++
    ",\"source_digest\":" ++ quoted manifest.sourceDigest ++
    ",\"files\":" ++ sampleFilesJson manifest.files ++
    ",\"sdk_files\":[" ++ ",".intercalate (manifest.sdkFiles.map quoted) ++ "]\x7d"

/-- A host whose archives are lists of members and which reads the text of
one manifest. -/
def sampleHost (known : Manifest) : Host (List Entry) where
  length := fun entries => 22 + 46 * entries.length
  records := some
  finish := fun members => some (members.map Member.entry)
  digest := sampleDigest
  filesJson := fun files => (sampleFilesJson files).toUTF8.data.toList
  manifestJson := fun manifest => (sampleManifestJson manifest).toUTF8.data.toList
  readManifest := fun content =>
    if content = (sampleManifestJson known ++ "\n").toUTF8.data.toList then some known else none
  startup := fun content => content = "require 'globalvariableoverrides'\n".toUTF8.data.toList
  random := "000000"
  fails := fun _ => false

/-- The manifest of the sample bundle. -/
def sampleManifest : Manifest :=
  bundleManifest (sampleHost ⟨1, "", "", .empty, []⟩)
    (.ofList (sampleSource.map fun entry => (entry.name, sampleDigest (entry.content.getD []))))
    samplePayload "1"

def samplePath : Path := ⟨"/data", some "scripts.zip"⟩

def sampleOutput : Path := ⟨"/data", some "managed.zip"⟩

def sampleWorld : World (Disk (List Entry)) Call :=
  ⟨fun path => if path = samplePath then some sampleSource else none, []⟩

theorem build_agrees_sample :
    ∃ result v file original built,
      buildWithPayload (sampleHost sampleManifest) samplePath sampleOutput samplePayload "1"
        sampleWorld = (.ok result, v) ∧
      v.state sampleOutput = some file ∧
      openZip (sampleHost sampleManifest) file = some built ∧
      Bundled original samplePayload built := by
  have hfaithful : (sampleHost sampleManifest).Faithful := by
    intro members file entries hfinish hrecords
    cases hfinish
    exact (Option.some.inj hrecords).symm
  have hsome : (buildWithPayload (sampleHost sampleManifest) samplePath sampleOutput samplePayload
      "1" sampleWorld).1.toOption.isSome = true := by decide +kernel
  cases hrun : buildWithPayload (sampleHost sampleManifest) samplePath sampleOutput samplePayload
      "1" sampleWorld with
  | mk outcome v =>
    rw [hrun] at hsome
    cases outcome with
    | error message => exact nomatch hsome
    | ok result =>
      obtain ⟨_, file, original, built, _, _, hwritten, hopened, _, hbundled, _⟩ :=
        (build_agrees hfaithful hrun).1 result rfl
      exact ⟨result, v, file, original, built, rfl, hwritten, hopened, hbundled⟩

end DstServer.Scripts
