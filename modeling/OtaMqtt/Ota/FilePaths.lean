import OtaMqtt.Ota.Routing
import OtaMqtt.Ota.Topics

/-! The file that a download serves (`OTAManager::send_file`, sherry/ota_manager.cc).

Version and name are joined with `_`, which both may contain. A uri cannot put a slash into
them, as it is split at slashes; the body of a POST can. -/

namespace OtaMqtt.Ota.FilePaths

open OtaMqtt.Lib OtaMqtt.Lib.Delimited OtaMqtt.Lib.Execution OtaMqtt.Lib.Stream
open OtaMqtt.Ota OtaMqtt.Ota.Dispatcher OtaMqtt.Ota.Routing
open OtaMqtt.Ota.Topics (Package package_eq joined_packages_iff)

/-- `file_path` as `send_file` builds it. -/
def builtPath (env : Environment) (package : Package) : String :=
  env.filePrevPath ++ "ota_" ++ toString package.deviceType.toNat ++ "_" ++ package.version ++ "_" ++
    package.name ++ ".jpg"

/-- The arguments of `handle_request`. -/
structure Request where
  cmd : String
  uri : String
  body : String

/-- The request is a `file_download` of the package. -/
def Asks (parse : String → Option Json) (request : Request) (package : Package) : Prop :=
  route parse request.cmd request.uri request.body = .submitted package.deviceType (-1) "file_download"
    (detail [("version", package.version), ("name", package.name)])

def Confined (env : Environment) (package : Package) : Prop :=
  ∃ file, builtPath env package = env.filePrevPath ++ file ∧ '/' ∉ file.toList

/-- Two packages have one path only when they are the same, and both paths stay where the
firmware is. -/
structure Served (env : Environment) (one other : Package) : Prop where
  paths : builtPath env one = builtPath env other ↔ one = other
  first : Confined env one
  second : Confined env other

def Slashless (package : Package) : Prop :=
  '/' ∉ package.version.toList ∧ '/' ∉ package.name.toList

/-- The one's version goes on where the other's ends, and takes the front of its name. -/
def Overlapping (one other : Package) : Prop :=
  one.deviceType = other.deviceType ∧ ∃ middle, one.version = other.version ++ "_" ++ middle ∧
    other.name = middle ++ "_" ++ one.name

/-- What `open` sees is the path that was built up to its first NUL. -/
theorem filePath_built (env : Environment) (package : Package) :
    OTAManager.filePath env package.deviceType package.name package.version =
      String.ofList ((builtPath env package).toList.takeWhile (· ≠ '\x00')) := rfl

/-- A `file_download` comes to `ota_file_download` with the package. -/
theorem asks_downloads (env : Environment) (manager : OTAManager) (connectId : Int) (request : Request)
    (package : Package) (asks : Asks env.parse request package) :
    handleRequest env manager connectId request.cmd request.uri request.body =
      .ok (manager.otaFileDownload env package.deviceType package.name package.version connectId) := by
  rw [handleRequest_route, asks]
  rfl

/-! ### The routes -/

theorem dispatchRoute_found {command : String} {json : Json} {package : Package}
    (submitted : dispatchRoute command json = .submitted package.deviceType (-1) "file_download"
      (detail [("version", package.version), ("name", package.name)])) :
    getText "version" json = .found package.version ∧ getText "name" json = .found package.name := by
  unfold dispatchRoute at submitted
  split at submitted
  · exact absurd (versionRoute_submitted submitted).1 (by decide)
  · exact absurd (deviceRoute_submitted submitted).1 (by decide)
  · exact absurd (versionRoute_submitted submitted).1 (by decide)
  · exact absurd (deviceRoute_submitted submitted).1 (by decide)
  · exact (versionRoute_submitted submitted).2.2
  · exact absurd (Route.submitted.inj submitted).2.2.1 (by decide)
  · cases submitted

theorem checkDownloadUri_fields {uri name version command : String} {deviceType : UInt16}
    (checked : checkDownloadUri uri = some (deviceType, name, version, command)) :
    name = downloadName uri ∧ version = downloadVersion uri := by
  by_cases start : "/download/ota/".toList.isPrefixOf uri.toList = true
  · rw [checkDownloadUri_eq uri start] at checked
    obtain ⟨value, -, fields⟩ := Option.map_eq_some_iff.mp checked
    simp only [Prod.mk.injEq] at fields
    exact ⟨fields.2.1.symm, fields.2.2.1.symm⟩
  · rw [checkDownloadUri, if_neg start] at checked
    cases checked

theorem downloadJson_texts (deviceType : UInt16) (name version : String) :
    getText "version" (downloadJson deviceType name version) = .found version ∧
      getText "name" (downloadJson deviceType name version) = .found name := by
  obtain ⟨-, -, named, versioned⟩ := download_fields deviceType name version
  rw [getText, getText, named, versioned]
  exact ⟨rfl, rfl⟩

/-- A package that a GET asks for has no slash. -/
theorem get_slashless {parse : String → Option Json} {request : Request} {package : Package}
    (asks : Asks parse request package) (get : request.cmd ≠ "POST") : Slashless package := by
  rw [Asks, route, if_neg get] at asks
  split at asks
  · split at asks
    · cases asks
    · rename_i deviceType name version command checked
      obtain ⟨versioned, named⟩ := dispatchRoute_found asks
      obtain ⟨version', name'⟩ := downloadJson_texts deviceType name version
      obtain ⟨names, versions⟩ := checkDownloadUri_fields checked
      rw [Slashless, Element.found.inj (versioned.symm.trans version'),
        Element.found.inj (named.symm.trans name'), names, versions]
      exact ⟨getline_free _ _, getline_free _ _⟩
  · split at asks
    · exact absurd (Route.submitted.inj asks).2.2.1 (by decide)
    · cases asks

theorem download_dispatched (package : Package) :
    dispatchRoute "file_download" (downloadJson package.deviceType package.name package.version) =
      .submitted package.deviceType (-1) "file_download"
        (detail [("version", package.version), ("name", package.name)]) := by
  obtain ⟨versioned, named⟩ := downloadJson_texts package.deviceType package.name package.version
  change versionRoute "file_download" _ = _
  rw [versionRoute, download_type, require, versioned, require, named, require]

def downloadUri (package : Package) : String :=
  "/download/ota/" ++ (toString package.deviceType.toNat ++ ("/" ++ (package.name ++ ("/" ++
    (package.version ++ "/file_download")))))

theorem uri_chars (package : Package) : (downloadUri package).toList =
    [] ++ '/' :: ("download".toList ++ '/' :: ("ota".toList ++ '/' ::
      (Nat.toDigits 10 package.deviceType.toNat ++ '/' :: (package.name.toList ++ '/' ::
        (package.version.toList ++ '/' :: "file_download".toList))))) := by
  have front : "/download/ota/".toList =
    [] ++ '/' :: ("download".toList ++ '/' :: ("ota".toList ++ ['/'])) := by decide +kernel
  have slash : "/".toList = ['/'] := rfl
  have back : "/file_download".toList = '/' :: "file_download".toList := by decide +kernel
  have digits : (toString package.deviceType.toNat).toList = Nat.toDigits 10 package.deviceType.toNat :=
    Nat.toList_repr
  rw [downloadUri, String.toList_append, String.toList_append, String.toList_append,
    String.toList_append, String.toList_append, String.toList_append, front, slash, back, digits]
  simp only [List.append_assoc, List.cons_append, List.nil_append]

theorem uri_rest (package : Package) : downloadRest (downloadUri package) =
    Nat.toDigits 10 package.deviceType.toNat ++ '/' :: (package.name.toList ++ '/' ::
      (package.version.toList ++ '/' :: "file_download".toList)) := by
  have plain : '/' ∉ "download".toList ∧ '/' ∉ "ota".toList := by decide
  rw [downloadRest, uri_chars, getline_cut List.not_mem_nil, getline_cut plain.1, getline_cut plain.2]

theorem stoul_type (deviceType : UInt16) :
    (stoul (String.ofList (Nat.toDigits 10 deviceType.toNat))).map UInt64.toUInt16 = some deviceType := by
  have small : deviceType.toNat < 2 ^ 16 := deviceType.toNat_lt
  have read := stoul_digits (String.ofList (Nat.toDigits 10 deviceType.toNat))
  rw [String.toList_ofList, Nat.ofDigitChars_ten_toDigits] at read
  rw [read (Nat.toDigits_ne_nil) (fun character member =>
    Nat.isDigit_of_mem_toDigits (by decide) (by decide) member) (by omega), Option.map_some,
    Option.some.injEq, ← UInt16.toNat_inj]
  exact segment_keeps deviceType.toNat small

/-- A GET can ask for every package without a slash. -/
theorem get_asks (parse : String → Option Json) (package : Package) (body : String)
    (free : Slashless package) : Asks parse ⟨"GET", downloadUri package, body⟩ package := by
  have start : "/download/ota/".toList.isPrefixOf (downloadUri package).toList = true := by
    rw [List.isPrefixOf_iff_prefix, downloadUri, String.toList_append]
    exact List.prefix_append _ _
  have typed (rest : List Char) := @getline_cut '/' (Nat.toDigits 10 package.deviceType.toNat) rest
    (not_digit _ (by decide))
  have named (rest : List Char) := @getline_cut '/' package.name.toList rest free.2
  have versioned (rest : List Char) := @getline_cut '/' package.version.toList rest free.1
  rw [Asks, download_route parse _ body start, typeSegment, downloadName, downloadVersion,
    downloadCommand, uri_rest, typed]
  dsimp only
  rw [named]
  dsimp only
  rw [versioned]
  dsimp only
  rw [String.ofList_toList, String.ofList_toList]
  obtain ⟨value, read, kept⟩ := Option.map_eq_some_iff.mp (stoul_type package.deviceType)
  have command : extract "file_download".toList = "file_download" := by decide +kernel
  rw [segmentRoute, read, command]
  dsimp only
  rw [kept, download_dispatched]

/-- A POST can ask for any package at all. -/
theorem post_asks (package : Package) (body : String) :
    Asks (fun _ => some (downloadJson package.deviceType package.name package.version))
      ⟨"POST", "/api/ota/file_download", body⟩ package := by
  have checked : checkUri "/api/ota/file_download" = some "file_download" := by decide +kernel
  rw [Asks, route, if_pos rfl, checked]
  exact download_dispatched package

/-! ### The paths -/

def fileName (package : Package) : String :=
  "ota_" ++ toString package.deviceType.toNat ++ "_" ++ package.version ++ "_" ++ package.name ++ ".jpg"

theorem builtPath_eq (env : Environment) (package : Package) :
    builtPath env package = env.filePrevPath ++ fileName package := by
  simp only [builtPath, fileName, String.append_assoc]

theorem fileName_chars (package : Package) : (fileName package).toList =
    "ota_".toList ++ (Nat.toDigits 10 package.deviceType.toNat ++ '_' ::
      (package.version.toList ++ '_' :: package.name.toList ++ ".jpg".toList)) := by
  simp [fileName, Nat.toList_repr]

theorem builtPath_file (env : Environment) (package : Package) (file : String) :
    builtPath env package = env.filePrevPath ++ file ↔ fileName package = file := by
  rw [builtPath_eq, ← String.toList_inj, String.toList_append, String.toList_append,
    List.append_cancel_left_eq, String.toList_inj]

theorem path_iff (env : Environment) (one other : Package) : builtPath env one = builtPath env other ↔
    one.deviceType = other.deviceType ∧ one.version.toList ++ '_' :: one.name.toList =
      other.version.toList ++ '_' :: other.name.toList := by
  rw [builtPath_eq env other, builtPath_file, ← String.toList_inj, fileName_chars, fileName_chars]
  constructor
  · intro same
    obtain ⟨types, rests⟩ := split_first (not_digit _ (by decide)) (not_digit _ (by decide))
      (List.append_cancel_left same)
    exact ⟨UInt16.toNat_inj.mp (digits_injective types), List.append_cancel_right rests⟩
  · rintro ⟨types, joined⟩
    rw [types, joined]

theorem shared_path_iff (env : Environment) (one other : Package) :
    builtPath env one = builtPath env other ↔
      one = other ∨ Overlapping one other ∨ Overlapping other one := by
  have single : "_".toList = ['_'] := rfl
  rw [path_iff]
  exact joined_packages_iff single Package.version Package.name
    (fun _ _ types versions names => package_eq types names versions) one other

theorem overlapping_ne {one other : Package} (overlapping : Overlapping one other) : one ≠ other := by
  rintro rfl
  have single : "_".toList = ['_'] := rfl
  obtain ⟨-, middle, versions, -⟩ := overlapping
  exact longer_text single _ middle versions

theorem paths_iff (env : Environment) (one other : Package) :
    (builtPath env one = builtPath env other ↔ one = other) ↔
      ¬ Overlapping one other ∧ ¬ Overlapping other one := by
  rw [shared_path_iff]
  constructor
  · intro same
    exact ⟨fun overlapping => overlapping_ne overlapping (same.mp (.inr (.inl overlapping))),
      fun overlapping => overlapping_ne overlapping (same.mp (.inr (.inr overlapping))).symm⟩
  · rintro ⟨forward, backward⟩
    simp only [forward, backward, or_false]

theorem fileName_slashless (package : Package) :
    '/' ∉ (fileName package).toList ↔ Slashless package := by
  have plain : '/' ∉ "ota_".toList ∧ '/' ∉ ".jpg".toList := by decide
  have digits : '/' ∉ Nat.toDigits 10 package.deviceType.toNat := not_digit _ (by decide)
  rw [fileName_chars]
  simp only [List.mem_append, List.mem_cons, plain.1, plain.2, digits, Slashless]
  simp

theorem confined_iff (env : Environment) (package : Package) :
    Confined env package ↔ Slashless package := by
  rw [← fileName_slashless]
  constructor
  · rintro ⟨file, built, free⟩
    rwa [(builtPath_file env package file).mp built]
  · intro free
    exact ⟨fileName package, builtPath_eq env package, free⟩

/-- A pair of downloads is served from the right files exactly when the bodies of POSTs put no
slash into the package, and neither package's version takes over a part of the other's name. -/
theorem served_iff (env : Environment) (one other : Request) (first second : Package)
    (asks : Asks env.parse one first) (asks' : Asks env.parse other second) :
    Served env first second ↔
      (one.cmd = "POST" → Slashless first) ∧ (other.cmd = "POST" → Slashless second) ∧
        ¬ Overlapping first second ∧ ¬ Overlapping second first := by
  have free : Slashless first ↔ (one.cmd = "POST" → Slashless first) :=
    ⟨fun free _ => free, fun posted => Classical.byCases posted (get_slashless asks)⟩
  have free' : Slashless second ↔ (other.cmd = "POST" → Slashless second) :=
    ⟨fun free _ => free, fun posted => Classical.byCases posted (get_slashless asks')⟩
  rw [← free, ← free', ← paths_iff env, ← confined_iff env, ← confined_iff env]
  constructor
  · rintro ⟨paths, confined, confined'⟩
    exact ⟨confined, confined', paths⟩
  · rintro ⟨confined, confined', paths⟩
    exact ⟨paths, confined, confined'⟩

def fileServer : Environment where
  builder := { httpVersion := "1.1", dump := fun _ => none }
  parse := fun _ => none
  openFile := fun _ => none
  filePrevPath := "./file/"
  currentTime := "2025-06-01 12:00:00"
  now := 0

theorem gps_and_assk_served : Served fileServer ⟨1, "gps", "1.0.01"⟩ ⟨1, "assk", "1.0.01"⟩ := by
  have gps := get_asks fileServer.parse ⟨1, "gps", "1.0.01"⟩ "" ⟨by decide, by decide⟩
  have assk := get_asks fileServer.parse ⟨1, "assk", "1.0.01"⟩ "" ⟨by decide, by decide⟩
  apply (served_iff fileServer _ _ _ _ gps assk).mpr
  have apart (one other : Package) (none : '_' ∉ one.version.toList) : ¬ Overlapping one other := by
    rintro ⟨-, middle, versions, -⟩
    apply none
    rw [(joined_text rfl ..).mp versions]
    exact List.mem_append_right _ List.mem_cons_self
  exact ⟨fun post => absurd post (by decide), fun post => absurd post (by decide),
    apart _ _ (by decide), apart _ _ (by decide)⟩

/-- Version `a_b` of `c` and version `a` of `b_c` are one file. -/
theorem underscore_shared :
    ¬ ∀ (env : Environment) (one other : Request) (first second : Package),
      Asks env.parse one first → Asks env.parse other second → Served env first second := by
  intro all_served
  have one := get_asks fileServer.parse ⟨1, "c", "a_b"⟩ "" ⟨by decide, by decide⟩
  have other := get_asks fileServer.parse ⟨1, "b_c", "a"⟩ "" ⟨by decide, by decide⟩
  have shared : builtPath fileServer ⟨1, "c", "a_b"⟩ = builtPath fileServer ⟨1, "b_c", "a"⟩ := by
    decide +kernel
  exact absurd ((all_served fileServer _ _ _ _ one other).paths.mp shared) (by decide)

end OtaMqtt.Ota.FilePaths
