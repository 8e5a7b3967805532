import X2rp.Admin.Api
import X2rp.Files

/-! How the server writes a file, and what it writes into the one with its state. -/
namespace X2rp.Admin

open Files

/-- What `with_extension` keeps of a path: all before the last dot of its last component, if that
dot does not begin it. -/
def stem (path : String) : String :=
  match path.toList.reverse.dropWhile fun c => c ≠ '.' && c ≠ '/' with
  | '.' :: c :: rest => if c = '/' then path else .ofList (c :: rest).reverse
  | _ => path

/-- `Path::with_extension`. -/
def withExtension (path ext : String) : String := stem path ++ "." ++ ext

theorem stem_cases (path : String) : stem path = path ∨ ∃ tail, '.' ∉ tail ∧
    path.toList.reverse = tail ++ '.' :: (stem path).toList.reverse := by
  unfold stem
  split
  · rename_i c rest hd
    split
    · exact .inl rfl
    · refine .inr ⟨path.toList.reverse.takeWhile fun c => c ≠ '.' && c ≠ '/', ?_, ?_⟩
      · intro hmem
        simpa using List.mem_takeWhile_imp hmem
      · have hsplit := List.takeWhile_append_dropWhile (l := path.toList.reverse)
          (p := fun c => c ≠ '.' && c ≠ '/')
        rw [hd] at hsplit
        rw [String.toList_ofList, List.reverse_reverse]
        exact hsplit.symm
  · exact .inl rfl

/-- An extension with a dot in it makes for another path. -/
theorem withExtension_ne {path ext : String} (h : '.' ∈ ext.toList) :
    withExtension path ext ≠ path := by
  intro he
  have hr : ext.toList.reverse ++ '.' :: (stem path).toList.reverse = path.toList.reverse := by
    have := congrArg (fun s => s.toList.reverse) he
    simpa [withExtension] using this
  rcases stem_cases path with hstem | ⟨tail, htail, hpath⟩
  · have := congrArg List.length hr
    simp only [hstem, List.length_append, List.length_cons] at this
    omega
  · rw [hpath] at hr
    have : ext.toList.reverse = tail := List.append_cancel_right hr
    exact htail (this ▸ List.mem_reverse.mpr h)

/-- The calls of `save_secure_file`. -/
inductive SaveStep
  | createDirAll
  | createNew
  | writeAll
  | syncAll
  | rename
  | openParent
  | syncParent
deriving DecidableEq, Repr

/-- How the calls of one `save_secure_file` go: which of them fail, how much a write that fails
has written, and the random part of the temporary name. -/
structure Weather where
  hex : String
  fault : SaveStep → Option IoError := fun _ => none
  written : Nat := 0

namespace Weather

variable (w : Weather) (path : String)

def tmpPath : String := withExtension path ("tmp." ++ w.hex)

theorem tmpPath_ne : w.tmpPath path ≠ path := withExtension_ne (by simp)

/-- Nothing goes wrong once the new file is in its place. -/
def FairAfterRename : Prop := w.fault .openParent = none ∧ w.fault .syncParent = none

end Weather

variable {β : Type} {w : Weather} {path : String} {data : List β} {d : Disk String β}

/-- Save raw bytes to a file: write a fresh temp file, fsync, rename over the target, fsync the
directory. -/
def saveSecureFile (w : Weather) (path : String) (data : List β) : FileM String β Unit := do
  call (w.fault .createDirAll)
  createNew (w.fault .createNew) (w.tmpPath path)
  writeAll (w.fault .writeAll) w.written (w.tmpPath path) data
  call (w.fault .syncAll)
  rename (w.fault .rename) (w.tmpPath path) path
  call (w.fault .openParent)
  call (w.fault .syncParent)

/-- The disk with the new file in its place. -/
def replaced (w : Weather) (path : String) (data : List β) (d : Disk String β) : Disk String β :=
  Function.update (Function.update d (w.tmpPath path) none) path (some data)

/-- How `save_secure_file` can end. An error comes from before the rename, with the target as it
was and perhaps a temp file left, or from after it. -/
inductive Replaced (w : Weather) (path : String) (data : List β) (d : Disk String β) :
    Except IoError Unit → Disk String β → Prop
  | done : Replaced w path data d (.ok ()) (replaced w path data d)
  | kept {e : IoError} {torn : Option (List β)} :
      Replaced w path data d (.error e) (Function.update d (w.tmpPath path) torn)
  | late {e : IoError} (hw : ¬ w.FairAfterRename) :
      Replaced w path data d (.error e) (replaced w path data d)

theorem Replaced.untouched {e : IoError} : Replaced w path data d (.error e) d := by
  have h : Replaced w path data d (.error e)
      (Function.update d (w.tmpPath path) (d (w.tmpPath path))) := .kept
  rwa [Function.update_eq_self] at h

theorem saveSecureFile_ends (w : Weather) (path : String) (data : List β) (d : Disk String β) :
    (saveSecureFile w path data).Ends d (Replaced w path data d) := by
  refine FileM.ends_bind (FileM.ends_call (fun _ => ?_) fun e _ => .untouched)
  refine FileM.ends_bind (FileM.ends_createNew (fun _ _ => ?_) fun e _ => .untouched)
  refine FileM.ends_bind (FileM.ends_writeAll (fun _ => ?_) fun e _ => ?_)
  swap
  · simp only [Function.update_idem]
    exact .kept
  simp only [Function.update_idem]
  refine FileM.ends_bind (FileM.ends_call (fun _ => ?_) fun e _ => .kept)
  refine FileM.ends_bind (FileM.ends_rename (fun content _ hc => ?_) fun e _ => .kept)
  obtain rfl : data = content := by simpa using hc
  simp only [Function.update_idem]
  refine FileM.ends_bind (FileM.ends_call (fun _ => ?_) fun e he => .late ?_)
  · exact FileM.ends_call (fun _ => .done) fun e he => .late fun hw => by simp [hw.2] at he
  · exact fun hw => by simp [hw.1] at he

/-- With every call going well, it is only the temporary name that can be in the way. -/
theorem saveSecureFile_done (hf : ∀ step, w.fault step = none) (ht : d (w.tmpPath path) = none) :
    (saveSecureFile w path data).Ends d fun answer d' =>
      answer = .ok () ∧ d' = replaced w path data d := by
  have hno : ∀ {step e} {P : Prop}, w.fault step = some e → P := by
    intro step e P h
    simp [hf step] at h
  refine FileM.ends_bind (FileM.ends_call (fun _ => ?_) fun e => hno)
  refine FileM.ends_bind (FileM.ends_createNew (fun _ _ => ?_) fun e he => ?_)
  swap
  · exact he.elim hno fun h => absurd ht h
  refine FileM.ends_bind (FileM.ends_writeAll (fun _ => ?_) fun e => hno)
  simp only [Function.update_idem]
  refine FileM.ends_bind (FileM.ends_call (fun _ => ?_) fun e => hno)
  refine FileM.ends_bind (FileM.ends_rename (fun content _ hc => ?_) fun e he => ?_)
  swap
  · exact he.elim hno (by simp)
  obtain rfl : data = content := by simpa using hc
  simp only [Function.update_idem]
  refine FileM.ends_bind (FileM.ends_call (fun _ => ?_) fun e => hno)
  exact FileM.ends_call (fun _ => ⟨rfl, rfl⟩) fun e => hno

@[simp] theorem replaced_path : replaced w path data d path = some data := by
  simp [replaced]

namespace Replaced

variable {answer : Except IoError Unit} {d' : Disk String β}

/-- No file but the target and the temporary one is touched. -/
theorem other {p : String} (h : Replaced w path data d answer d') (hp : p ≠ path)
    (ht : p ≠ w.tmpPath path) : d' p = d p := by
  cases h <;> simp [replaced, hp, ht]

end Replaced

/-- The fields of `AppState` that are written to disk. -/
structure Saved where
  state : AppState := {}
  initialized : Bool := false
  serverConfig : ServerConfig := {}
  adminPasswordHash : Option String := none

/-- What `AppState::load` makes of it. -/
def Saved.loaded (s : Saved) : Saved := { s with state := s.state.loaded }

/-- What the server relies on serde_json for. -/
structure Json (β : Type) where
  toStringPretty : Saved → Except String (List β)
  fromSlice : List β → Except String Saved
  fromSlice_of_toStringPretty : ∀ s data, toStringPretty s = .ok data → fromSlice data = .ok s

def stateFile : String := "/var/lib/x2rp/state.json"

/-- `AppState::load`. A missing file is a first install. -/
def load (J : Json β) (d : Disk String β) : Except String Saved :=
  match d stateFile with
  | none => .ok {}
  | some data =>
    match J.fromSlice data with
    | .error e => .error ("state file " ++ stateFile ++ " is corrupt (" ++ e ++
        "). Restore a backup; refusing to start empty.")
    | .ok s => .ok s.loaded

namespace Saved

/-- `AppState::save`. -/
def save (J : Json β) (w : Weather) (s : Saved) : FileM String β Unit :=
  match J.toStringPretty s with
  | .error _ => throw .other
  | .ok data => saveSecureFile w stateFile data

/-- After a save the file is the new one, or it is the old one and the answer an error. The new
one with an error takes trouble after the rename. -/
theorem save_ends (J : Json β) (w : Weather) (s : Saved) (d : Disk String β) :
    (s.save J w).Ends d fun answer d' =>
      answer = .ok () ∧ load J d' = .ok s.loaded ∨
      (∃ e, answer = .error e) ∧
        (d' stateFile = d stateFile ∨ ¬ w.FairAfterRename ∧ load J d' = .ok s.loaded) := by
  unfold save
  cases hs : J.toStringPretty s with
  | error e => exact .inr ⟨⟨_, rfl⟩, .inl rfl⟩
  | ok data =>
    have hload : ∀ d' : Disk String β, d' stateFile = some data → load J d' = .ok s.loaded := by
      intro d' hd
      simp only [load, hd, J.fromSlice_of_toStringPretty s data hs, loaded]
    refine (saveSecureFile_ends w stateFile data d).mono fun answer d' h => ?_
    cases h with
    | done => exact .inl ⟨rfl, hload _ replaced_path⟩
    | kept => exact .inr ⟨⟨_, rfl⟩, .inl (by simp [(w.tmpPath_ne stateFile).symm])⟩
    | late hw => exact .inr ⟨⟨_, rfl⟩, .inr ⟨hw, hload _ replaced_path⟩⟩

end Saved

end X2rp.Admin
