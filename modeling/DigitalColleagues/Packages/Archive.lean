import DigitalColleagues.Packages.Format

/-!
# Package archives

The validation of an archive: the checks of its ZIP directory, of its one member and
of the document in it. An archive is accepted exactly when that member is the
canonical encoding of a package.

## Main definitions

- `safeMember`, `ZipArchive.content` — the checks of the directory
- `validatePackageArchive` — the validation
- `AcceptedArchive` — what it accepts

## Main results

- `validatePackageArchive_exact` — which archives are accepted, and as what
-/

namespace DigitalColleagues

-- ════════════════════════════════════════════════════════════════════════
-- ZIP archives
-- ════════════════════════════════════════════════════════════════════════

/-- `zipfile.ZipInfo`. -/
structure ZipInfo where
  filename : String
  flagBits : ℕ
  comment : List UInt8
  externalAttr : ℕ
  fileSize : ℤ
  compressSize : ℤ
deriving DecidableEq

/-- An open `zipfile.ZipFile`; a read of at most so many bytes gives nothing where it
    raises what the validation translates. -/
structure ZipArchive where
  comment : List UInt8
  infolist : List ZipInfo
  read : ZipInfo → ℕ → Option (List UInt8)

/-- The libraries that the validation calls. A float is nothing where it is infinite. -/
structure ArchivePorts where
  sha256 : List UInt8 → Digest
  openZip : List UInt8 → Option ZipArchive
  casefold : String → String
  parseFloat : List Char → Option ℚ

/-- `PurePosixPath(name).parts`, of a relative path. -/
def pathParts (name : List Char) : List (List Char) :=
  (name.splitOn '/').filter fun part => part ≠ [] ∧ part ≠ ['.']

/-- `stat.S_IFMT`, of the mode of a member. -/
def ZipInfo.fileType (info : ZipInfo) : ℕ := info.externalAttr / 2 ^ 16 % 2 ^ 16 &&& 0o170000

/-- `is_dir`. -/
def ZipInfo.isDir (info : ZipInfo) : Bool := info.filename.toList.getLast? = some '/'

/-- `_safe_member`. -/
def safeMember (info : ZipInfo) : Outcome Unit := do
  let name := info.filename.toList
  require (name ≠ [] ∧ '\\' ∉ name ∧ '\x00' ∉ name)
    (.validation "archive member path is invalid")
  let parts := pathParts name
  require (name.head? ≠ some '/' ∧ ['.', '.'] ∉ parts)
    (.validation "archive member path traversal is forbidden")
  require (parts.length ≤ 2) (.validation "archive nesting exceeds the fixed bound")
  require (∀ part ∈ parts, part.head? ≠ some '.')
    (.validation "hidden archive payload is forbidden")
  require (info.flagBits % 2 = 0 ∧ info.comment = [])
    (.validation "encrypted or commented archive member is forbidden")
  require (info.isDir = false ∧ (info.fileType = 0 ∨ info.fileType = 0o100000))
    (.validation "archive links and special files are forbidden")
  require (0 ≤ info.fileSize ∧ info.fileSize ≤ 131072)
    (.validation "archive member exceeds the fixed size bound")
  require (0 ≤ info.compressSize) (.validation "archive compressed size is invalid")
  require (info.fileSize = 0 ∨ info.compressSize ≠ 0)
    (.validation "archive compression ratio is invalid")
  require (info.compressSize = 0 ∨ info.fileSize ≤ info.compressSize * 20)
    (.validation "archive compression ratio exceeds the fixed bound")

/-- The names of the members so far and their total size. -/
structure SeenMembers where
  names : List String
  folded : List String
  total : ℤ

namespace ZipArchive

/-- One round of the loop over the members. -/
def see (casefold : String → String) (seen : SeenMembers) (info : ZipInfo) :
    Outcome SeenMembers := do
  safeMember info
  require (info.filename ∉ seen.names ∧ casefold info.filename ∉ seen.folded)
    (.validation "archive contains duplicate or case-colliding members")
  require (seen.total + info.fileSize ≤ 131072)
    (.validation "archive total content exceeds the fixed bound")
  pure ⟨info.filename :: seen.names, casefold info.filename :: seen.folded,
    seen.total + info.fileSize⟩

/-- The content of the one member that the directory may have. -/
def content (casefold : String → String) (zip : ZipArchive) : Outcome (List UInt8) := do
  require (zip.comment = []) (.validation "archive comments are forbidden")
  require (1 ≤ zip.infolist.length ∧ zip.infolist.length ≤ 4)
    (.validation "archive file count is outside the fixed bound")
  let seen ← zip.infolist.foldlM (see casefold) ⟨[], [], 0⟩
  require ((∀ name ∈ seen.names, name = "agent.json") ∧ "agent.json" ∈ seen.names)
    (.validation "archive must contain only agent.json")
  let info ← orFail zip.infolist.head? (.validation "archive must contain only agent.json")
  let content ← orFail (zip.read info 131073) (.validation "package archive is invalid")
  require (content.length = info.fileSize ∧ content.length ≤ 131072)
    (.validation "archive member read exceeded its declared bound")
  pure content

end ZipArchive

-- ════════════════════════════════════════════════════════════════════════
-- Validation
-- ════════════════════════════════════════════════════════════════════════

def notStrictJson : Failure := .validation "agent.json is not strict UTF-8 JSON"

namespace ArchivePorts

variable (ports : ArchivePorts)

/-- `json.loads`, with `_pairs` for the objects and `_invalid_number` for the words. -/
def hooks : JsonText.Hooks WireJson Failure where
  null := .null
  bool := .bool
  int := .int
  float text :=
    match ports.parseFloat text with
    | some q => .float q
    | none => .nonFinite
  constant _ := .error (.validation "package JSON number is unsupported")
  str := .str
  array := .array
  object entries :=
    if (entries.map Prod.fst).Nodup then .ok (.object entries)
    else .error (.validation "package JSON contains a duplicate key")
  invalid := notStrictJson

/-- `_parse_json`. -/
def parseJson (value : List UInt8) : Outcome WireJson := do
  let text ← orFail (decodeUtf8 value) notStrictJson
  JsonText.load ports.hooks text

end ArchivePorts

/-- A broken invariant of the core, translated. -/
def schemaChecked {α : Type} : Outcome α → Outcome α
  | .ok a => .ok a
  | .error (.coreInvariant _) => .error (.validation "AgentPackage schema validation failed")
  | .error e => .error e

structure ValidatedPackageArchive where
  package : AgentPackage
  archiveDigest : Digest
  packageDigest : Digest
  compressedSize : ℕ
  uncompressedSize : ℕ

/-- `validate_package_archive`. -/
def validatePackageArchive (ports : ArchivePorts) (archive : List UInt8)
    (expectedArchiveDigest : Option Digest) : Outcome ValidatedPackageArchive := do
  require (archive ≠ [] ∧ archive.length ≤ 131072)
    (.validation "package archive is empty or exceeds the fixed bound")
  require (∀ digest ∈ expectedArchiveDigest, ports.sha256 archive = digest)
    (.validation "package archive digest does not match the expected value")
  let zip ← orFail (ports.openZip archive) (.validation "package archive is invalid")
  let content ← zip.content ports.casefold
  let parsed ← ports.parseJson content
  let package ← schemaChecked (agentPackageFromMapping ports.sha256 parsed)
  let bytes ← schemaChecked (canonicalJsonBytes package.toData)
  require (content = bytes) (.validation "agent.json is not the canonical package encoding")
  pure
    { package
      archiveDigest := ports.sha256 archive
      packageDigest := ports.sha256 bytes
      compressedSize := archive.length
      uncompressedSize := content.length }

-- ════════════════════════════════════════════════════════════════════════
-- The directory
-- ════════════════════════════════════════════════════════════════════════

theorem schemaChecked_eq_ok {α : Type} {x : Outcome α} {a : α} :
    schemaChecked x = .ok a ↔ x = .ok a := by
  unfold schemaChecked
  split <;> simp

/-- What the directory says of the one member, whose content has this length. -/
structure PackageMember (info : ZipInfo) (length : ℕ) : Prop where
  name : info.filename = "agent.json"
  plain : info.flagBits % 2 = 0 ∧ info.comment = []
  regular : info.fileType = 0 ∨ info.fileType = 0o100000
  size : (length : ℤ) = info.fileSize
  bounded : length ≤ 131072
  compressed : 0 ≤ info.compressSize ∧ (length : ℤ) ≤ info.compressSize * 20

theorem agentJson_parts : pathParts "agent.json".toList = ["agent.json".toList] := by decide +kernel

/-- A member of that name is safe exactly when the rest of its entry is. -/
theorem safeMember_eq_ok {info : ZipInfo} {u : Unit} {length : ℕ}
    (hname : info.filename = "agent.json") (hsize : (length : ℤ) = info.fileSize)
    (hbounded : length ≤ 131072) :
    safeMember info = .ok u ↔ PackageMember info length := by
  have hlist : info.filename.toList = "agent.json".toList := congrArg String.toList hname
  have hdir : info.isDir = false := by
    rw [ZipInfo.isDir, hlist]
    decide
  simp only [safeMember, bind_eq_ok, require_eq_ok, exists_const, hlist, agentJson_parts, hdir]
  constructor
  · rintro ⟨-, -, -, -, hplain, ⟨-, hregular⟩, -, hpositive, hzero, hratio⟩
    refine ⟨hname, hplain, hregular, hsize, hbounded, hpositive, ?_⟩
    rcases hratio with hratio | hratio
    · have hempty := hzero.resolve_right (absurd hratio)
      omega
    · rwa [hsize]
  · intro h
    have hratio := h.compressed
    refine ⟨by decide, by decide, by decide, by decide, h.plain, ⟨trivial, h.regular⟩, ?_, hratio.1,
      ?_, ?_⟩
    · omega
    · omega
    · omega

namespace ZipArchive

variable {casefold : String → String} {seen seen' : SeenMembers}

theorem see_eq_ok {info : ZipInfo} :
    see casefold seen info = .ok seen' ↔
      safeMember info = .ok () ∧ info.filename ∉ seen.names ∧
        casefold info.filename ∉ seen.folded ∧ seen.total + info.fileSize ≤ 131072 ∧
        seen' = ⟨info.filename :: seen.names, casefold info.filename :: seen.folded,
          seen.total + info.fileSize⟩ := by
  simp only [see, bind_eq_ok, require_eq_ok, exists_const, pure_eq_ok, and_assoc,
    eq_comm (a := seen')]
  constructor
  · rintro ⟨⟨⟩, h⟩
    exact h
  · intro h
    exact ⟨(), h⟩

/-- The loop collects every name, and no name twice. -/
theorem names_of_see : ∀ {infolist : List ZipInfo} {seen seen' : SeenMembers},
    infolist.foldlM (see casefold) seen = .ok seen' → seen.names.Nodup →
      seen'.names = (infolist.map ZipInfo.filename).reverse ++ seen.names ∧ seen'.names.Nodup
  | [], _, _, h, hnodup => by
    obtain rfl := pure_eq_ok.mp h
    exact ⟨rfl, hnodup⟩
  | info :: infolist, seen, seen', h, hnodup => by
    rw [List.foldlM_cons] at h
    obtain ⟨next, hsee, hrest⟩ := bind_eq_ok.mp h
    obtain ⟨-, hnew, -, -, rfl⟩ := see_eq_ok.mp hsee
    obtain ⟨hnames, hnodup⟩ := names_of_see hrest (List.nodup_cons.mpr ⟨hnew, hnodup⟩)
    refine ⟨?_, hnodup⟩
    rw [hnames, List.map_cons, List.reverse_cons, List.append_assoc, List.singleton_append]

/-- A directory all of whose names are the one name has one member. -/
theorem infolist_eq_singleton {infolist : List ZipInfo} {name : String}
    (hloop : infolist.foldlM (see casefold) ⟨[], [], 0⟩ = .ok seen')
    (hall : ∀ n ∈ seen'.names, n = name) (hmem : name ∈ seen'.names) :
    ∃ info, infolist = [info] ∧ info.filename = name := by
  obtain ⟨hnames, hnodup⟩ := names_of_see hloop List.nodup_nil
  rw [List.append_nil] at hnames
  have hlength : seen'.names.length ≤ 1 := by
    rw [List.eq_replicate_of_mem hall, List.nodup_replicate] at hnodup
    exact hnodup
  rw [hnames, List.length_reverse, List.length_map] at hlength
  match infolist, hnames, hlength with
  | [], hnames, _ =>
    rw [hnames] at hmem
    exact absurd hmem List.not_mem_nil
  | [info], hnames, _ =>
    refine ⟨info, rfl, hall _ ?_⟩
    rw [hnames]
    exact List.mem_singleton_self _

/-- The directories that have a content. -/
theorem content_eq_ok {zip : ZipArchive} {content : List UInt8} :
    zip.content casefold = .ok content ↔
      zip.comment = [] ∧ ∃ info, zip.infolist = [info] ∧ PackageMember info content.length ∧
        zip.read info 131073 = some content := by
  simp only [ZipArchive.content, bind_eq_ok, require_eq_ok, orFail_eq_ok, pure_eq_ok, exists_const]
  constructor
  · rintro ⟨hcomment, -, seen, hloop, ⟨hall, hmem⟩, first, hfirst, bytes, hread, ⟨hsize, hbound⟩,
      rfl⟩
    obtain ⟨info, hinfolist, hname⟩ := infolist_eq_singleton hloop hall hmem
    rw [hinfolist] at hfirst hloop
    obtain rfl : info = first := Option.some.inj hfirst
    refine ⟨hcomment, info, hinfolist, ?_, hread⟩
    rw [List.foldlM_cons] at hloop
    obtain ⟨next, hsee, -⟩ := bind_eq_ok.mp hloop
    exact (safeMember_eq_ok hname hsize hbound).mp (see_eq_ok.mp hsee).1
  · rintro ⟨hcomment, info, hinfolist, hmember, hread⟩
    have hsafe : safeMember info = .ok () :=
      (safeMember_eq_ok hmember.name hmember.size hmember.bounded).mpr hmember
    have htotal : 0 + info.fileSize ≤ 131072 := by
      have hsize := hmember.size
      have hbounded := hmember.bounded
      omega
    have hsee : see casefold ⟨[], [], 0⟩ info =
        .ok ⟨[info.filename], [casefold info.filename], 0 + info.fileSize⟩ :=
      see_eq_ok.mpr ⟨hsafe, List.not_mem_nil, List.not_mem_nil, htotal, rfl⟩
    have hloop : zip.infolist.foldlM (see casefold) ⟨[], [], 0⟩ =
        .ok ⟨[info.filename], [casefold info.filename], 0 + info.fileSize⟩ := by
      rw [hinfolist, List.foldlM_cons, hsee]
      rfl
    refine ⟨hcomment, ?_, _, hloop, ⟨?_, ?_⟩, info, ?_, content, hread,
      ⟨hmember.size, hmember.bounded⟩, rfl⟩
    · rw [hinfolist]
      exact ⟨le_rfl, Nat.le_add_left 1 3⟩
    · intro n hn
      rw [List.mem_singleton.mp hn, hmember.name]
    · rw [hmember.name]
      exact List.mem_singleton_self _
    · rw [hinfolist]
      rfl

end ZipArchive

-- ════════════════════════════════════════════════════════════════════════
-- Accepted archives
-- ════════════════════════════════════════════════════════════════════════

/-- An archive that is accepted, with what the validation says of it. -/
structure AcceptedArchive (ports : ArchivePorts) (archive : List UInt8)
    (expectedArchiveDigest : Option Digest) (validated : ValidatedPackageArchive) : Prop where
  bounded : archive ≠ [] ∧ archive.length ≤ 131072
  expected : ∀ digest ∈ expectedArchiveDigest, ports.sha256 archive = digest
  member : ∃ zip info content, ports.openZip archive = some zip ∧ zip.comment = [] ∧
    zip.infolist = [info] ∧ PackageMember info content.length ∧
    zip.read info 131073 = some content ∧
    canonicalJsonBytes validated.package.toData = .ok content ∧
    validated.packageDigest = ports.sha256 content ∧
    validated.uncompressedSize = content.length
  constructed : validated.package.Constructed ports.sha256
  exact : validated.package.Exact
  archiveDigest : validated.archiveDigest = ports.sha256 archive
  compressedSize : validated.compressedSize = archive.length

section Accepted

variable {ports : ArchivePorts}

theorem ArchivePorts.hooks_lossless (ports : ArchivePorts) : Lossless ports.hooks where
  null := rfl
  bool _ := rfl
  int _ := rfl
  str _ := rfl
  array _ := rfl
  object _ hnodup := if_pos hnodup

theorem ArchivePorts.hooks_keeps (ports : ArchivePorts) :
    ports.hooks.Keeps WireJson.UniqueKeys where
  null := trivial
  bool _ := trivial
  int _ := trivial
  float text := by
    simp only [ArchivePorts.hooks]
    split <;> trivial
  constant word v h := absurd h (by simp [ArchivePorts.hooks])
  str _ := trivial
  array _ hall := WireJson.uniqueKeysItems_iff.mpr hall
  object members v hall h := by
    simp only [ArchivePorts.hooks] at h
    split_ifs at h with hnodup
    obtain rfl := Except.ok.inj h
    exact ⟨hnodup, WireJson.uniqueKeysEntries_iff.mpr hall⟩

/-- A parsed document has each key of an object once. -/
theorem ArchivePorts.uniqueKeys_of_parseJson {content : List UInt8} {v : WireJson}
    (h : ports.parseJson content = .ok v) : v.UniqueKeys := by
  obtain ⟨text, -, hload⟩ := bind_eq_ok.mp h
  exact JsonText.load_keeps ports.hooks_keeps hload

/-- The encoding of a package that can be read back is read as it. -/
theorem parse_canonicalJsonBytes {p : AgentPackage} {content : List UInt8}
    (hconstructed : p.Constructed ports.sha256) (hexact : p.Exact)
    (hcontent : canonicalJsonBytes p.toData = .ok content) :
    ∃ parsed, ports.parseJson content = .ok parsed ∧
      agentPackageFromMapping ports.sha256 parsed = .ok p := by
  have hu := p.arguments.uniqueKeys_toData
  obtain ⟨text, w, htext, hload, hw⟩ := ports.hooks_lossless.load_canonicalJsonBytes hu hcontent
  obtain ⟨hcanonical, huw⟩ := canonicalValue_canonical hu hw
  refine ⟨w, ?_, agentPackageFromMapping_of_canonicalValue huw hconstructed hexact ?_⟩
  · rw [ArchivePorts.parseJson, htext]
    exact hload
  · rw [hcanonical]
    exact hw.symm

theorem validatePackageArchive_eq_ok {archive : List UInt8} {expectedArchiveDigest : Option Digest}
    {validated : ValidatedPackageArchive} :
    validatePackageArchive ports archive expectedArchiveDigest = .ok validated ↔
      AcceptedArchive ports archive expectedArchiveDigest validated := by
  simp only [validatePackageArchive, bind_eq_ok, require_eq_ok, orFail_eq_ok, pure_eq_ok,
    exists_const, schemaChecked_eq_ok, ZipArchive.content_eq_ok]
  constructor
  · rintro ⟨hbounded, hexpected, zip, hzip, content, ⟨hcomment, info, hinfolist, hmember, hread⟩,
      parsed, hparsed, package, hpackage, bytes, hbytes, rfl, rfl⟩
    obtain ⟨hconstructed, hexact, -⟩ :=
      canonicalValue_of_agentPackageFromMapping (ports.uniqueKeys_of_parseJson hparsed) hpackage
    exact ⟨hbounded, hexpected, ⟨zip, info, content, hzip, hcomment, hinfolist, hmember, hread,
      hbytes, rfl, rfl⟩, hconstructed, hexact, rfl, rfl⟩
  · intro h
    obtain ⟨zip, info, content, hzip, hcomment, hinfolist, hmember, hread, hcontent, hdigest,
      hsize⟩ := h.member
    obtain ⟨parsed, hparsed, hpackage⟩ :=
      parse_canonicalJsonBytes h.constructed h.exact hcontent
    refine ⟨h.bounded, h.expected, zip, hzip, content,
      ⟨hcomment, info, hinfolist, hmember, hread⟩, parsed, hparsed, _, hpackage, content, hcontent,
      rfl, ?_⟩
    rw [← h.archiveDigest, ← hdigest, ← hsize, ← h.compressedSize]

/-- What the one member of an archive holds. -/
def ArchivePorts.archiveContent (ports : ArchivePorts) (archive : List UInt8) :
    Option (List UInt8) :=
  (ports.openZip archive).bind fun zip => (zip.content ports.casefold).toOption

theorem AcceptedArchive.content {archive : List UInt8} {expectedArchiveDigest : Option Digest}
    {validated : ValidatedPackageArchive}
    (h : AcceptedArchive ports archive expectedArchiveDigest validated) :
    ∃ content, ports.archiveContent archive = some content ∧
      canonicalJsonBytes validated.package.toData = .ok content := by
  obtain ⟨zip, info, content, hzip, hcomment, hinfolist, hmember, hread, hcontent, -, -⟩ := h.member
  have hdirectory : zip.content ports.casefold = .ok content :=
    ZipArchive.content_eq_ok.mpr ⟨hcomment, info, hinfolist, hmember, hread⟩
  refine ⟨content, ?_, hcontent⟩
  rw [ArchivePorts.archiveContent, hzip, Option.bind_some, hdirectory]
  rfl

/-- Packages that can be read back and have one encoding are one package. -/
theorem package_eq_of_canonicalJsonBytes {p p' : AgentPackage} {content : List UInt8}
    (hconstructed : p.Constructed ports.sha256) (hexact : p.Exact)
    (hconstructed' : p'.Constructed ports.sha256) (hexact' : p'.Exact)
    (hcontent : canonicalJsonBytes p.toData = .ok content)
    (hcontent' : canonicalJsonBytes p'.toData = .ok content) : p = p' := by
  have hread := agentPackageFromMapping_of_canonicalValue p.arguments.uniqueKeys_toData
    hconstructed hexact rfl
  have hread' := agentPackageFromMapping_of_canonicalValue p.arguments.uniqueKeys_toData
    hconstructed' hexact' (canonicalValue_of_canonicalJsonBytes hcontent hcontent')
  exact Except.ok.inj (hread.symm.trans hread')

/-- **The archives that are accepted**, and as what: one member, which is the canonical
    encoding of a package that can be read back. Accepted archives hold one package
    exactly when their members have one content. -/
theorem validatePackageArchive_exact (ports : ArchivePorts) :
    (∀ archive expectedArchiveDigest validated,
      validatePackageArchive ports archive expectedArchiveDigest = .ok validated ↔
        AcceptedArchive ports archive expectedArchiveDigest validated) ∧
    (∀ archive archive' expectedArchiveDigest expectedArchiveDigest' validated validated',
      validatePackageArchive ports archive expectedArchiveDigest = .ok validated →
      validatePackageArchive ports archive' expectedArchiveDigest' = .ok validated' →
      (ports.archiveContent archive = ports.archiveContent archive' ↔
        validated.package = validated'.package)) := by
  refine ⟨fun archive expectedArchiveDigest validated => validatePackageArchive_eq_ok, ?_⟩
  intro archive archive' expectedArchiveDigest expectedArchiveDigest' validated validated' h h'
  have h := validatePackageArchive_eq_ok.mp h
  have h' := validatePackageArchive_eq_ok.mp h'
  obtain ⟨content, hmember, hcontent⟩ := h.content
  obtain ⟨content', hmember', hcontent'⟩ := h'.content
  rw [hmember, hmember', Option.some.injEq]
  constructor
  · rintro rfl
    exact package_eq_of_canonicalJsonBytes h.constructed h.exact h'.constructed h'.exact hcontent
      hcontent'
  · intro heq
    rw [heq] at hcontent
    exact Except.ok.inj (hcontent.symm.trans hcontent')

end Accepted

/-- The encoding of the small package. -/
def sampleContent : List UInt8 :=
  (canonicalJsonBytes sampleFormatPackage.toData).toOption.getD []

/-- A ZIP file of it, which is stored as it is. -/
def sampleArchive : List UInt8 :=
  [80, 75, 3, 4, 20, 0, 0, 0, 0, 0, 0, 0, 33, 88, 52, 112, 194, 255, 254, 1, 0, 0, 254, 1, 0, 0, 10,
    0, 0, 0, 97, 103, 101, 110, 116, 46, 106, 115, 111, 110] ++ sampleContent ++
    [80, 75, 1, 2, 20, 3, 20, 0, 0, 0, 0, 0, 0, 0, 33, 88, 52, 112, 194, 255, 254, 1, 0, 0, 254, 1,
      0, 0, 10, 0, 0, 0, 0, 0, 0, 0, 0, 0, 0, 0, 164, 129, 0, 0, 0, 0, 97, 103, 101, 110, 116, 46,
      106, 115, 111, 110, 80, 75, 5, 6, 0, 0, 0, 0, 1, 0, 1, 0, 56, 0, 0, 0, 38, 2, 0, 0, 0, 0]

def sampleMember : ZipInfo := ⟨"agent.json", 0, [], 2175008768, 510, 510⟩

/-- What the libraries say of that file, of its content and of the content of the
    package. -/
def sampleArchivePorts : ArchivePorts where
  sha256 bytes :=
    if bytes = sampleArchive then 0x12635e0dd56223c85f7e24edeb6a975b6de21611aefd943657729f9663871b55
    else if bytes = sampleContent then
      0x83ced713c10c5a4145bbbd698d035627caf3af8e58282235989c71af722ab8b9
    else sampleSha256 bytes
  openZip archive :=
    if archive = sampleArchive then some ⟨[], [sampleMember], fun _ _ => some sampleContent⟩
    else none
  casefold := String.toLower
  parseFloat _ := none

theorem sampleContent_length : sampleContent.length = 510 := by decide +kernel

theorem canonicalJsonBytes_sample :
    canonicalJsonBytes sampleFormatPackage.toData = .ok sampleContent := by
  have hsome : (canonicalJsonBytes sampleFormatPackage.toData).toOption.isSome = true := by
    decide +kernel
  obtain ⟨bytes, hbytes⟩ := Option.isSome_iff_exists.mp hsome
  rw [sampleContent, hbytes, Option.getD_some]
  exact toOption_eq_some.mp hbytes

theorem sampleArchive_length : sampleArchive.length = 628 := by
  simp only [sampleArchive, List.length_append, sampleContent_length]
  decide

theorem hasDigest_sampleArchivePorts : sampleFormatPackage.HasDigest sampleArchivePorts.sha256 := by
  intro content hcontent
  have hlength : (canonicalJsonBytes sampleFormatPackage.contentData).toOption.map List.length =
      some 179 := by
    decide +kernel
  rw [hcontent] at hlength
  have hlength : content.length = 179 := Option.some.inj hlength
  have harchive : content ≠ sampleArchive := ne_of_apply_ne List.length (by
    rw [hlength, sampleArchive_length]
    decide)
  have hpackage : content ≠ sampleContent := ne_of_apply_ne List.length (by
    rw [hlength, sampleContent_length]
    decide)
  simp only [sampleArchivePorts, if_neg harchive, if_neg hpackage]
  exact hasDigest_sample content hcontent

theorem openZip_sample : sampleArchivePorts.openZip sampleArchive =
    some ⟨[], [sampleMember], fun _ _ => some sampleContent⟩ := by
  simp only [sampleArchivePorts, if_true]

theorem packageMember_sample : PackageMember sampleMember sampleContent.length := by
  rw [sampleContent_length]
  constructor <;> decide

/-- What is said of an archive of the small package. -/
def validatedSample (sha256 : List UInt8 → Digest) (archive content : List UInt8) :
    ValidatedPackageArchive where
  package := sampleFormatPackage
  archiveDigest := sha256 archive
  packageDigest := sha256 content
  compressedSize := archive.length
  uncompressedSize := content.length

theorem accepted_sample : AcceptedArchive sampleArchivePorts sampleArchive none
    (validatedSample sampleArchivePorts.sha256 sampleArchive sampleContent) := by
  have hbounded : sampleArchive ≠ [] ∧ sampleArchive.length ≤ 131072 := by
    rw [← List.length_pos_iff, sampleArchive_length]
    decide
  have hconstructed := constructed_sample hasDigest_sampleArchivePorts
  have hcontent := canonicalJsonBytes_sample
  have hmember := packageMember_sample
  have hopen := openZip_sample
  generalize sampleContent = content at *
  generalize sampleArchive = archive at *
  generalize sampleArchivePorts = ports at *
  exact ⟨hbounded, by simp, ⟨_, sampleMember, content, hopen, rfl, rfl, hmember, rfl, hcontent, rfl,
    rfl⟩, hconstructed, exact_sample, rfl, rfl⟩

theorem validatePackageArchive_exact_sample : ∃ validated,
    validatePackageArchive sampleArchivePorts sampleArchive none = .ok validated ∧
      validated.package = sampleFormatPackage ∧
      (sampleArchivePorts.archiveContent sampleArchive =
          sampleArchivePorts.archiveContent sampleArchive ↔
        validated.package = validated.package) := by
  have haccepts := (validatePackageArchive_exact sampleArchivePorts).1 sampleArchive none
  have hok := (haccepts _).mpr accepted_sample
  exact ⟨_, hok, rfl, (validatePackageArchive_exact sampleArchivePorts).2 _ _ _ _ _ _ hok hok⟩

end DigitalColleagues
