import LinkShelf.Proofs.Config

/-!
Configurations that are no good. Main statement: a file that can be read is either refused because
of a bad value or gives a configuration of proper values exactly if no field with a value of the
wrong kind is looked at or handed on before something else is refused (`isReported_load_iff`).
-/

namespace LinkShelf

theorem Disk.present_of_read {d : Disk} {p : Path} {content : ByteArray}
    (hread : d.read p = .ok content) : d.present p = .ok true := by
  obtain ⟨l, hl, hfile⟩ := bind_eq_ok.mp hread
  rw [FileSystem.read] at hfile
  split at hfile
  · next held hnode =>
      simp only [present, look, hl, hnode]
      rfl
  · cases hfile
  · cases hfile

namespace Toml.Value

def isText : Value → Bool
  | .text _ => true
  | _ => false

/-- The integer that a value is. Truth values count as one and zero. -/
def integer? : Value → Option Int
  | .int n => some n
  | .bool b => some b.toNat
  | _ => none

/-- Whether a value can be compared with a number. -/
def isNumber : Value → Bool
  | .bool _ | .int _ | .float _ => true
  | _ => false

end Toml.Value

namespace Config

open Toml (Table)

/-- Whether a version is a number that is greater than the one that is understood. -/
def isTooNew : Toml.Value → Bool
  | .int n => configVersion < n
  | .float x => isNewer x
  | _ => false

/-- Whether a value is an integer and not below zero. -/
def isNatural (v : Toml.Value) : Bool := v.integer?.any (0 ≤ ·)

/-- Whether the values of a configuration are of the kinds that it is to have. -/
structure IsProper (c : Config) : Prop where
  version : ∃ n, c.version.integer? = some n ∧ n ≤ configVersion
  created : c.created.isText = true
  defaultQuery : c.defaultQuery.isText = true
  limit : isNatural c.limit = true

/-- The configuration is proper, or it was refused because of a bad value. -/
inductive IsReported : Except Failure Config → Prop where
  | given {c : Config} (hproper : c.IsProper) : IsReported (.ok c)
  | refused {fault : Failure} (hbad : fault.isBadValue = true) : IsReported (.error fault)

@[simp] theorem isReported_ok {c : Config} : IsReported (.ok c) ↔ c.IsProper :=
  ⟨fun | .given hproper => hproper, .given⟩

@[simp] theorem isReported_error {fault : Failure} :
    IsReported (.error fault) ↔ fault.isBadValue = true :=
  ⟨fun | .refused hbad => hbad, .refused⟩

/-! ## Fields -/

/-- The members of a table of a document, if what stands there is a table or nothing does. -/
def members? (document : Table) (name : String) : Option Table :=
  (sectionOf document name).toOption

def versionIn (store : Table) : Toml.Value := (store.lookup "version").getD (.int 1)

def createdIn (store : Table) : Toml.Value := (store.lookup "created").getD (.text "")

def storePathIn (store : Table) : Toml.Value :=
  (store.lookup "path").getD (.text standardStorePath.text)

def limitIn (query : Table) : Toml.Value := (query.lookup "limit").getD (.int standardLimit)

def defaultQueryIn (query : Table) : Toml.Value :=
  (query.lookup "default").getD (.text standardQuery)

/-- Whether the values of a document that are used are of the kinds that they are to be of. Where
the version is too new or the limit is none, what comes later is not looked at. -/
def HasProperKinds (document : Table) : Prop :=
  ∃ store, members? document "store" = some store ∧ (versionIn store).isNumber = true ∧
    (isTooNew (versionIn store) = true ∨
      ∃ query, members? document "query" = some query ∧
        (isNatural (limitIn query) = true →
          (versionIn store).integer?.isSome = true ∧ (createdIn store).isText = true ∧
            (storePathIn store).isText = true ∧ (defaultQueryIn query).isText = true))

instance (document : Table) : Decidable (HasProperKinds document) :=
  decidable_of_iff ((members? document "store").any (fun store =>
      (versionIn store).isNumber && (isTooNew (versionIn store) ||
        (members? document "query").any fun query =>
          !isNatural (limitIn query) || ((versionIn store).integer?.isSome &&
            (createdIn store).isText && (storePathIn store).isText &&
            (defaultQueryIn query).isText))) = true) (by
    simp [HasProperKinds, Option.any_eq_true, imp_iff_not_or, and_assoc])

variable {directory file : Path} {document store query : Table} {v : Toml.Value} {c : Config}
  {fault : Failure}

theorem members?_eq_some {name : String} {members : Table} :
    members? document name = some members ↔ sectionOf document name = .ok members :=
  toOption_eq_some

/-- What is not a table has no members to look for. -/
theorem sectionOf_eq_error {name : String} (hsection : sectionOf document name = .error fault) :
    fault = .noSuchOperation ∧ members? document name = none := by
  have hnone : members? document name = none := by
    rw [members?, hsection]
    rfl
  rw [sectionOf] at hsection
  split at hsection
  · cases hsection
  · cases hsection
  · exact ⟨(Except.error.inj hsection).symm, hnone⟩

theorem checkedVersion_eq_ok {checked : Toml.Value} :
    checkedVersion v = .ok checked ↔ v.isNumber = true ∧ isTooNew v = false ∧ checked = v := by
  cases v with
  | int n =>
      by_cases hn : n ≤ configVersion
      · simp [checkedVersion, Toml.Value.isNumber, isTooNew, hn, eq_comm]
      · simp [checkedVersion, Toml.Value.isNumber, isTooNew, hn]
  | float x =>
      cases hx : isNewer x <;>
        simp [checkedVersion, Toml.Value.isNumber, isTooNew, hx, eq_comm]
  | bool b => simp [checkedVersion, Toml.Value.isNumber, isTooNew, eq_comm]
  | _ => simp [checkedVersion, Toml.Value.isNumber]

/-- A version is refused as a bad value if it is too new, and else because it is no number. -/
theorem checkedVersion_eq_error (hversion : checkedVersion v = .error fault) :
    (v.isNumber = true ∧ isTooNew v = true ∧ fault.isBadValue = true) ∨
      (v.isNumber = false ∧ ∃ kind, fault = .kind kind) := by
  cases v with
  | int n =>
      rw [checkedVersion] at hversion
      split at hversion
      · cases hversion
      · next hnew =>
          refine .inl ⟨rfl, by simpa [isTooNew] using hnew, ?_⟩
          rw [← Except.error.inj hversion]
          split <;> rfl
  | float x =>
      rw [checkedVersion] at hversion
      split at hversion
      · next hnew => exact .inl ⟨rfl, hnew, by rw [← Except.error.inj hversion]; rfl⟩
      · cases hversion
  | bool b => cases hversion
  | _ => exact .inr ⟨rfl, _, (Except.error.inj hversion).symm⟩

theorem le_of_not_isTooNew {n : Int} (hversion : isTooNew v = false) (hn : v.integer? = some n) :
    n ≤ configVersion := by
  cases v with
  | int m =>
      obtain rfl := Option.some.inj hn
      simpa [isTooNew] using hversion
  | bool b =>
      obtain rfl := Option.some.inj hn
      cases b <;> decide
  | _ => cases hn

theorem checkedLimit_eq (file : Path) (v : Toml.Value) :
    checkedLimit file v =
      if isNatural v then .ok v
      else if v.toJson.hasOversized then .error .oversizedInteger
      else .error (.badLimit file.text (String.ofList v.shown)) := by
  cases v with
  | bool b => cases b <;> rfl
  | _ => rfl

theorem checkedLimit_eq_ok {checked : Toml.Value} :
    checkedLimit file v = .ok checked ↔ isNatural v = true ∧ v = checked := by
  rw [checkedLimit_eq]
  cases hnatural : isNatural v with
  | true => simp
  | false =>
      rw [if_neg Bool.false_ne_true]
      split <;> simp

theorem checkedLimit_eq_error (hlimit : checkedLimit file v = .error fault) :
    isNatural v = false ∧ fault.isBadValue = true := by
  rw [checkedLimit_eq] at hlimit
  split at hlimit
  · cases hlimit
  · next hnatural =>
      refine ⟨by simpa using hnatural, ?_⟩
      split at hlimit <;> rw [← Except.error.inj hlimit] <;> rfl

theorem isText_of_pathOf {p : Path} (hpath : pathOf v = .ok p) : v.isText = true := by
  cases v with
  | text s => rfl
  | _ => cases hpath

theorem pathOf_eq_error (hpath : pathOf v = .error fault) :
    v.isText = false ∧ ∃ kind, fault = .kind kind := by
  cases v with
  | text s => cases hpath
  | _ => exact ⟨rfl, _, (Except.error.inj hpath).symm⟩

/-! ## Documents -/

/-- Where nothing is refused before the path, a configuration is reported as what it is exactly if
the values that are handed on are of the right kinds. -/
theorem isReported_pathOf_iff (hversion : isTooNew (versionIn store) = false)
    (hlimit : isNatural (limitIn query) = true) :
    IsReported (do
      let storePath ← pathOf (storePathIn store)
      return {
        directory
        version := versionIn store
        created := createdIn store
        storePath
        defaultQuery := defaultQueryIn query
        limit := limitIn query }) ↔
      (versionIn store).integer?.isSome = true ∧ (createdIn store).isText = true ∧
        (storePathIn store).isText = true ∧ (defaultQueryIn query).isText = true := by
  cases hpath : pathOf (storePathIn store) with
  | error fault =>
      obtain ⟨htext, kind, rfl⟩ := pathOf_eq_error hpath
      simp [htext, Failure.isBadValue]
  | ok storePath =>
      refine isReported_ok.trans ⟨?_, ?_⟩
      · rintro ⟨⟨n, hn, -⟩, hcreated, hdefault, -⟩
        exact ⟨by rw [Option.isSome_iff_exists]; exact ⟨n, hn⟩, hcreated, isText_of_pathOf hpath,
          hdefault⟩
      · rintro ⟨hinteger, hcreated, -, hdefault⟩
        obtain ⟨n, hn⟩ := Option.isSome_iff_exists.mp hinteger
        exact ⟨⟨n, hn, le_of_not_isTooNew hversion hn⟩, hcreated, hdefault, hlimit⟩

theorem isReported_ofDocument_iff :
    IsReported (ofDocument directory document) ↔ HasProperKinds document := by
  rw [HasProperKinds, ofDocument]
  cases hstore : sectionOf document "store" with
  | error fault =>
      obtain ⟨rfl, hnone⟩ := sectionOf_eq_error hstore
      simp [hnone, Failure.isBadValue]
  | ok store =>
      simp only [members?_eq_some.mpr hstore, ok_bind, Option.some.injEq, exists_eq_left']
      show IsReported (checkedVersion (versionIn store) >>= _) ↔ _
      cases hversion : checkedVersion (versionIn store) with
      | error fault =>
          obtain ⟨hnumber, hnew, hbad⟩ | ⟨hnumber, kind, rfl⟩ := checkedVersion_eq_error hversion
          · simp [hnumber, hnew, hbad]
          · simp [hnumber, Failure.isBadValue]
      | ok version =>
          obtain ⟨hnumber, hnew, rfl⟩ := checkedVersion_eq_ok.mp hversion
          simp only [hnumber, hnew, ok_bind, Bool.false_eq_true, false_or, true_and]
          cases hquery : sectionOf document "query" with
          | error fault =>
              obtain ⟨rfl, hnone⟩ := sectionOf_eq_error hquery
              simp [hnone, Failure.isBadValue]
          | ok query =>
              simp only [members?_eq_some.mpr hquery, ok_bind, Option.some.injEq, exists_eq_left']
              show IsReported (checkedLimit (directory.child fileName) (limitIn query) >>= _) ↔ _
              cases hlimit : checkedLimit (directory.child fileName) (limitIn query) with
              | error fault =>
                  obtain ⟨hunnatural, hbad⟩ := checkedLimit_eq_error hlimit
                  simp [hunnatural, hbad]
              | ok limit =>
                  obtain ⟨hnatural, rfl⟩ := checkedLimit_eq_ok.mp hlimit
                  rw [ok_bind]
                  exact (isReported_pathOf_iff hnew hnatural).trans (by simp [hnatural])

/-- A document is refused because of a bad value or of a value of the wrong kind. -/
theorem ofDocument_eq_error (hdocument : ofDocument directory document = .error fault) :
    fault.isBadValue = true ∨ fault = .noSuchOperation ∨ ∃ kind, fault = .kind kind := by
  rw [ofDocument] at hdocument
  obtain hstore | ⟨store, -, hdocument⟩ := bind_eq_error.mp hdocument
  · exact .inr (.inl (sectionOf_eq_error hstore).1)
  obtain hversion | ⟨version, -, hdocument⟩ := bind_eq_error.mp hdocument
  · obtain ⟨-, -, hbad⟩ | ⟨-, hkind⟩ := checkedVersion_eq_error hversion
    · exact .inl hbad
    · exact .inr (.inr hkind)
  obtain hquery | ⟨query, -, hdocument⟩ := bind_eq_error.mp hdocument
  · exact .inr (.inl (sectionOf_eq_error hquery).1)
  obtain hlimit | ⟨limit, -, hdocument⟩ := bind_eq_error.mp hdocument
  · exact .inl (checkedLimit_eq_error hlimit).2
  obtain hpath | ⟨storePath, -, hdocument⟩ := bind_eq_error.mp hdocument
  · exact .inr (.inr (pathOf_eq_error hpath).2)
  · cases hdocument

/-- The two fields that are looked at are as they are to be, whatever the others are. -/
theorem ofDocument_eq_ok (hdocument : ofDocument directory document = .ok c) :
    c.version.isNumber = true ∧ isTooNew c.version = false ∧ isNatural c.limit = true := by
  rw [ofDocument] at hdocument
  obtain ⟨store, -, hdocument⟩ := bind_eq_ok.mp hdocument
  obtain ⟨version, hversion, hdocument⟩ := bind_eq_ok.mp hdocument
  obtain ⟨query, -, hdocument⟩ := bind_eq_ok.mp hdocument
  obtain ⟨limit, hlimit, hdocument⟩ := bind_eq_ok.mp hdocument
  obtain ⟨storePath, -, hdocument⟩ := bind_eq_ok.mp hdocument
  obtain rfl := Except.ok.inj hdocument
  obtain ⟨hnumber, hnew, rfl⟩ := checkedVersion_eq_ok.mp hversion
  obtain ⟨hnatural, rfl⟩ := checkedLimit_eq_ok.mp hlimit
  exact ⟨hnumber, hnew, hnatural⟩

/-! ## Files -/

theorem isBadValue_of_documentOfBytes {content : ByteArray}
    (hcontent : documentOfBytes content = .error fault) : fault.isBadValue = true := by
  rw [documentOfBytes] at hcontent
  split at hcontent
  · rw [← Except.error.inj hcontent]
    rfl
  · split at hcontent
    · cases hcontent
    · rw [← Except.error.inj hcontent]
      rfl

theorem load_of_read {d : Disk} {content : ByteArray}
    (hread : d.read (directory.child fileName) = .ok content) :
    load d directory = documentOfBytes content >>= ofDocument directory := by
  have hcontent : (do
      if ← d.present (directory.child fileName) then d.read (directory.child fileName)
      else throw (.missingConfig (directory.child fileName).text) : Except FileFault ByteArray) =
        .ok content := by
    rw [Disk.present_of_read hread, ok_bind, if_pos rfl, hread]
  rw [load]
  simp only [hcontent]

/-- Of a file that can be read, either the configuration is given or something is refused: a bad
value, or a value that cannot do what is asked of it. The version that is given is not too new and
the limit is an integer not below zero. All that is given is proper, and all that is refused is a
bad value, exactly if no value of a wrong kind is used before something else is refused. -/
theorem isReported_load_iff {d : Disk} {directory : Path} {content : ByteArray}
    (hread : d.read (directory.child fileName) = .ok content) :
    (∀ fault, load d directory = .error fault →
      fault.isBadValue = true ∨ fault = .noSuchOperation ∨ ∃ kind, fault = .kind kind) ∧
    (∀ c, load d directory = .ok c →
      c.version.isNumber = true ∧ isTooNew c.version = false ∧ isNatural c.limit = true) ∧
    (IsReported (load d directory) ↔
      ∀ document, documentOfBytes content = .ok document → HasProperKinds document) := by
  rw [load_of_read hread]
  cases hdocument : documentOfBytes content with
  | error fault =>
      have hbad : fault.isBadValue = true := isBadValue_of_documentOfBytes hdocument
      refine ⟨?_, nofun, ?_⟩
      · intro other hother
        rw [← Except.error.inj hother]
        exact .inl hbad
      · exact iff_of_true (.refused hbad) nofun
  | ok document =>
      rw [ok_bind]
      refine ⟨fun fault => ofDocument_eq_error, fun c => ofDocument_eq_ok, ?_⟩
      rw [isReported_ofDocument_iff]
      exact ⟨by rintro h _ ⟨⟩; exact h, fun h => h document rfl⟩

/-- A disk with a configuration file of this content in the directory `settings`. -/
def settingsWith (content : ByteArray) : Disk where
  files := ⟨[(["settings"], .directory), (["settings", "tagmarks.toml"], .file content)]⟩
  workingDirectory := []
  refusal? := fun _ => none

theorem read_settingsWith (content : ByteArray) :
    (settingsWith content).read ((Path.ofParts ["settings"]).child fileName) = .ok content := by
  rfl

theorem isReported_load_limited :
    (settingsWith "[query]\nlimit = 7\n".toUTF8).read
        ((Path.ofParts ["settings"]).child fileName) = .ok "[query]\nlimit = 7\n".toUTF8 ∧
      IsReported (load (settingsWith "[query]\nlimit = 7\n".toUTF8) (.ofParts ["settings"])) := by
  have hread := read_settingsWith "[query]\nlimit = 7\n".toUTF8
  have hkinds : (documentOfBytes "[query]\nlimit = 7\n".toUTF8).toOption.all
      (fun document => decide (HasProperKinds document)) = true := by decide +kernel
  refine ⟨hread, (isReported_load_iff hread).2.2.mpr fun document hdocument => ?_⟩
  rw [hdocument] at hkinds
  exact of_decide_eq_true hkinds

/-- A version that is a text is not refused as a bad value: it cannot be compared with a number. -/
theorem not_isReported_load_versionText :
    load (settingsWith "[store]\nversion = \"x\"\n".toUTF8) (.ofParts ["settings"]) =
        .error (.kind (.incomparable .greater "str" "int")) ∧
      ¬ IsReported
        (load (settingsWith "[store]\nversion = \"x\"\n".toUTF8) (.ofParts ["settings"])) := by
  have hfault : (match load (settingsWith "[store]\nversion = \"x\"\n".toUTF8)
        (.ofParts ["settings"]) with
      | .ok _ => none
      | .error fault => some fault) = some (.kind (.incomparable .greater "str" "int")) := by
    decide +kernel
  cases hload : load (settingsWith "[store]\nversion = \"x\"\n".toUTF8)
      (.ofParts ["settings"]) with
  | ok c =>
      rw [hload] at hfault
      cases hfault
  | error fault =>
      rw [hload] at hfault
      obtain rfl := Option.some.inj hfault
      exact ⟨rfl, by simp [Failure.isBadValue]⟩

end Config

end LinkShelf
