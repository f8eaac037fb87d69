import DigitalColleagues.Deployments.Rows
import DigitalColleagues.Packages.Archive

/-!
# Stored packages

The store keeps the text of a package and reads the package from it whenever it reads
the row. On a host whose packages come from archives, every row that any run leaves
is the legacy package or one from an accepted archive, and its text reads back as it.

## Main definitions

- `storedJson`, `ArchivePorts.packageFromText` — the column of the package
- `HostPorts.withArchives` — the host whose inspector is the archive validator
- `PackageRow.Origin` — where the package of a row came from

## Main results

- `stored_packages_readable` — the rows of every run
-/

namespace DigitalColleagues

open DeploymentTables

-- ════════════════════════════════════════════════════════════════════════
-- Texts
-- ════════════════════════════════════════════════════════════════════════

/-- `d[key] = value`, in the place of the key where there is one. -/
def dictSet (d : List (PyString × WireJson)) (e : PyString × WireJson) :
    List (PyString × WireJson) :=
  if e.1 ∈ d.map Prod.fst then d.map fun f => if f.1 = e.1 then e else f else d ++ [e]

/-- The `dict` that the pairs of an object make; the last of a key holds. -/
def dictOf (entries : List (PyString × WireJson)) : List (PyString × WireJson) :=
  entries.foldl dictSet []

theorem foldl_dictSet : ∀ {entries d : List (PyString × WireJson)},
    ((d ++ entries).map Prod.fst).Nodup → entries.foldl dictSet d = d ++ entries
  | [], d, _ => (List.append_nil d).symm
  | e :: entries, d, hnodup => by
    have hnew : e.1 ∉ d.map Prod.fst := by
      intro hmem
      rw [List.map_append, List.map_cons] at hnodup
      exact (List.nodup_append.mp hnodup).2.2 _ hmem _ List.mem_cons_self rfl
    rw [List.foldl_cons, dictSet, if_neg hnew, foldl_dictSet, List.append_assoc,
      List.singleton_append]
    rw [List.append_assoc, List.singleton_append]
    exact hnodup

theorem dictOf_of_nodup {entries : List (PyString × WireJson)}
    (h : (entries.map Prod.fst).Nodup) : dictOf entries = entries :=
  foldl_dictSet h

/-- `_json`, of a document without fractions. -/
def storedJson (value : WireJson) : Outcome (List Char) := do
  let sorted ← canonicalValue value
  let tree ← orFail sorted.tree? (.coreInvariant "package JSON cannot be canonically encoded")
  pure tree.write

/-- The text that is stored is the one that the digest is taken of. -/
theorem canonicalJsonBytes_eq_storedJson (value : WireJson) :
    canonicalJsonBytes value = (storedJson value).map encodeUtf8 := by
  unfold canonicalJsonBytes storedJson
  cases canonicalValue value with
  | error e => rfl
  | ok sorted => cases htree : sorted.tree? <;> simp [bind, Except.bind, orFail, htree] <;> rfl

namespace ArchivePorts

variable (archives : ArchivePorts)

/-- `json.loads`, with nothing for what it raises. -/
def storeHooks : JsonText.Hooks WireJson Unit where
  null := .null
  bool := .bool
  int := .int
  float text :=
    match archives.parseFloat text with
    | some q => .float q
    | none => .nonFinite
  constant _ := .ok .nonFinite
  str := .str
  array := .array
  object entries := .ok (.object (dictOf entries))
  invalid := ()

theorem storeHooks_lossless : Lossless archives.storeHooks where
  null := rfl
  bool _ := rfl
  int _ := rfl
  str _ := rfl
  array _ := rfl
  object _ hnodup := congrArg (fun d => Except.ok (WireJson.object d)) (dictOf_of_nodup hnodup)

/-- The package of `_package_from_row`. -/
def packageFromText (text : List Char) : Option AgentPackage :=
  (JsonText.load archives.storeHooks text).toOption.bind fun raw =>
    (agentPackageFromMapping archives.sha256 raw).toOption

/-- The text of a package that can be read back is read as it. -/
theorem packageFromText_storedJson {p : AgentPackage} (hconstructed : p.Constructed archives.sha256)
    (hexact : p.Exact) :
    ∃ text, storedJson p.toData = .ok text ∧ archives.packageFromText text = some p := by
  obtain ⟨bytes, hbytes, -⟩ := hconstructed.size
  have hu := p.arguments.uniqueKeys_toData
  obtain ⟨text, w, htext, hload, hw⟩ :=
    archives.storeHooks_lossless.load_canonicalJsonBytes hu hbytes
  obtain ⟨hcanonical, huw⟩ := canonicalValue_canonical hu hw
  have hread : agentPackageFromMapping archives.sha256 w = .ok p :=
    agentPackageFromMapping_of_canonicalValue huw hconstructed hexact (hcanonical.trans hw.symm)
  refine ⟨text, ?_, ?_⟩
  · rw [canonicalJsonBytes_eq_storedJson] at hbytes
    cases hstored : storedJson p.toData with
    | error e =>
      rw [hstored] at hbytes
      exact absurd hbytes (by simp [Except.map])
    | ok stored =>
      rw [hstored] at hbytes
      obtain rfl : encodeUtf8 stored = bytes := Except.ok.inj hbytes
      rw [decodeUtf8_encodeUtf8] at htext
      rw [Option.some.inj htext]
  · rw [packageFromText, hload]
    show (agentPackageFromMapping archives.sha256 w).toOption = some p
    rw [hread]
    rfl

end ArchivePorts

-- ════════════════════════════════════════════════════════════════════════
-- The legacy package
-- ════════════════════════════════════════════════════════════════════════

theorem legacyPackage_exact : legacyPackage.Exact := by constructor <;> decide +kernel

theorem legacyPackage_constructed {sha256 : List UInt8 → Digest}
    (h : legacyPackage.HasDigest sha256) : legacyPackage.Constructed sha256 :=
  h.constructed (by decide +kernel) (by decide) (by decide) (by decide) (by decide +kernel)
    (by decide +kernel)

-- ════════════════════════════════════════════════════════════════════════
-- The host
-- ════════════════════════════════════════════════════════════════════════

/-- A host whose inspector is the archive validator. -/
def HostPorts.withArchives (ports : HostPorts) (archives : ArchivePorts) : HostPorts :=
  { ports with
    packageDigest := fun package => archives.sha256
      (((canonicalJsonBytes package.toData).toOption).getD [])
    bytesDigest := archives.sha256
    unpack := fun archive => (validatePackageArchive archives archive none).map (·.package) }

/-- Where the package of a row came from. -/
inductive PackageRow.Origin (archives : ArchivePorts) (row : PackageRow) : Prop
  | legacy (package : row.package = legacyPackage)
      (digest : row.packageDigest = legacyPackageDigest)
  | accepted {archive : List UInt8} {validated : ValidatedPackageArchive}
      (accepted : AcceptedArchive archives archive none validated)
      (package : row.package = validated.package)
      (digest : row.packageDigest = validated.packageDigest)
      (archiveDigest : row.archiveDigest = validated.archiveDigest)

section Runs

variable {ports : HostPorts} {archives : ArchivePorts}

/-- What an inspection says, of an archive that it accepts. -/
theorem accepted_of_inspect {archive : List UInt8} {expected : Digest}
    {inspection : PackageInspection}
    (h : P11PackageService.inspect (ports.withArchives archives) archive expected =
      .ok inspection) :
    ∃ validated, AcceptedArchive archives archive none validated ∧
      inspection.package = validated.package ∧
      inspection.packageDigest = validated.packageDigest ∧
      inspection.archiveDigest = validated.archiveDigest := by
  simp only [P11PackageService.inspect, bind_eq_ok, require_eq_ok, exists_const, pure_eq_ok] at h
  obtain ⟨-, package, hpackage, rfl⟩ := h
  cases hvalid : validatePackageArchive archives archive none with
  | error e =>
    simp [HostPorts.withArchives, hvalid, Except.map] at hpackage
  | ok validated =>
    have haccepted := validatePackageArchive_eq_ok.mp hvalid
    simp only [HostPorts.withArchives, hvalid, Except.map, Except.ok.injEq] at hpackage
    obtain ⟨_, _, content, _, _, _, _, _, hcontent, hdigest, _⟩ := haccepted.member
    refine ⟨validated, haccepted, hpackage.symm, ?_, haccepted.archiveDigest.symm⟩
    rw [hdigest, ← hpackage]
    simp only [HostPorts.withArchives, hcontent, Except.toOption, Option.getD_some]

theorem origin_of_move {s : HostState} {a : HostAction} {t : HostTables}
    (h : HostMove (ports.withArchives archives) s a t)
    (hs : ∀ row ∈ s.tables.deployments.packages, row.Origin archives) :
    ∀ row ∈ t.deployments.packages, row.Origin archives := by
  cases h with
  | idle same elsewhere => rwa [same]
  | initial command effect =>
    rcases effect.packages with hinsert | ⟨hsame, _⟩
    · intro row hrow
      rcases (Table.mem_insert hinsert).mp hrow with hold | rfl
      · exact hs row hold
      · exact .legacy rfl rfl
    · rwa [hsame]
  | replayed requested recorded => exact hs
  | call requested authority fresh effect =>
    cases effect with
    | registered inspected fields actor well effect =>
      intro row hrow
      rcases (Table.mem_insert effect.packages).mp hrow with hold | rfl
      · exact hs row hold
      · obtain ⟨validated, haccepted, hpackage, hdigest, harchive⟩ := accepted_of_inspect inspected
        refine .accepted haccepted ?_ ?_ ?_ <;> rw [newPackageRow, fields]
        · exact hpackage
        · exact hdigest
        · exact harchive
    | @changed _ _ _ _ _ record old d seen fields well effect =>
      intro row hrow
      have hold := Table.mem_of_find? effect.found
      have hfound : s.tables.deployments.packages.find?
          (Keyed.key (changedPackageRow record old)) = some old := Table.find?_of_mem hold
      rw [effect.packages] at hrow
      rcases (Table.mem_replace hfound).mp hrow with rfl | ⟨hrow, _⟩
      · cases hs old hold with
        | legacy package digest => exact .legacy package digest
        | accepted accepted package digest archiveDigest =>
          exact .accepted accepted package digest archiveDigest
      · exact hs row hrow
    | created made effect => rwa [effect.packages]
    | rebinding read made effect => rwa [effect.packages]
    | reviewed bound effect => rwa [effect.packages]
    | confirmed bound effect => rwa [effect.packages]
    | transitioned parsed starts effect => cases effect <;> exact hs

/-- Every row that a run leaves came from somewhere. -/
theorem origin_of_reachable {s : HostState} (h : (host (ports.withArchives archives)).Reachable s) :
    ∀ row ∈ s.tables.deployments.packages, row.Origin archives := by
  refine TransitionSystem.Reachable.invariant
    (I := fun s => ∀ row ∈ s.tables.deployments.packages, row.Origin archives) ?_ ?_ h
  · rintro s rfl row hrow
    exact absurd hrow (Table.not_mem_empty row)
  · intro s a t hs hstep
    exact origin_of_move (hostMove_of_exec hstep) hs

/-- **Every package that any run leaves** is the legacy package or comes from an archive
    that was accepted, with the digests of both, and its text reads back as it. -/
theorem stored_packages_readable (hlegacy : legacyPackage.HasDigest archives.sha256) {s : HostState}
    (h : (host (ports.withArchives archives)).Reachable s) {row : PackageRow}
    (hrow : row ∈ s.tables.deployments.packages) :
    row.Origin archives ∧ ∃ text, storedJson row.package.toData = .ok text ∧
      archives.packageFromText text = some row.package := by
  have horigin := origin_of_reachable h row hrow
  refine ⟨horigin, ?_⟩
  cases horigin with
  | legacy package digest =>
    rw [package]
    exact archives.packageFromText_storedJson (legacyPackage_constructed hlegacy)
      legacyPackage_exact
  | accepted accepted package digest archiveDigest =>
    rw [package]
    exact archives.packageFromText_storedJson accepted.constructed accepted.exact

end Runs

/-- What the libraries say on a host that has the legacy package alone. -/
def legacyArchivePorts : ArchivePorts where
  sha256 bytes :=
    if canonicalJsonBytes legacyPackage.contentData = .ok bytes then legacyPackage.contentDigest
    else if canonicalJsonBytes legacyPackage.toData = .ok bytes then legacyPackageDigest
    else 0
  openZip _ := none
  casefold := String.toLower
  parseFloat _ := none

theorem hasDigest_legacyArchivePorts : legacyPackage.HasDigest legacyArchivePorts.sha256 := by
  intro content hcontent
  simp only [legacyArchivePorts, if_pos hcontent]

set_option maxRecDepth 8000 in
/-- The package of an initial colleague, stored and read. -/
theorem stored_packages_readable_sample :
    ∃ s, (host (sampleHostPorts.withArchives legacyArchivePorts)).Reachable s ∧
      ∃ row ∈ s.tables.deployments.packages, row.Origin legacyArchivePorts ∧
        ∃ text, storedJson row.package.toData = .ok text ∧
          legacyArchivePorts.packageFromText text = some row.package := by
  obtain ⟨tr, s, hpath, hs⟩ := exists_host_path (sampleHostPorts.withArchives legacyArchivePorts)
    (sampleHostBootstrap ++ [sampleInitialColleague 40])
    (fun _ s => !s.tables.deployments.packages.rows.isEmpty) (by decide +kernel)
  have hreachable := hpath.reachable (.init rfl)
  cases hrows : s.tables.deployments.packages.rows with
  | nil => simp [hrows] at hs
  | cons row rows =>
    have hrow : row ∈ s.tables.deployments.packages := by
      rw [Table.mem_def, hrows]
      exact List.mem_cons_self
    exact ⟨s, hreachable, row, hrow,
      stored_packages_readable hasDigest_legacyArchivePorts hreachable hrow⟩

end DigitalColleagues
