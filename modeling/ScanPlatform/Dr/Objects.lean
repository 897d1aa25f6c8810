import Mathlib.Data.Finset.Max
import ScanPlatform.Base.PyText
import ScanPlatform.Dr.Drill

/-!
# The archive of the objects

Every object of the listed buckets becomes a member of one archive, under the name of its bucket and
its key; a manifest keeps the rest. The restoration splits the names that it reads.

* `TarMember`, `tarInfo`, `TarMember.memberName`: a member of a tar archive, and the name that is
  read of it;
* `ObjectStore`, `Restored`, `backupObjects`, `restoreObjects`, `verifyObjectsArchive`: the two
  stores, and the functions between them;
* `fixed_of_covered`: a map that shrinks and covers a list is the identity on it;
* `decoded`, `Restorable`, **`decoded_iff`**: the name that an object is restored under, and when it
  is its own;
* `RoundTrips`, **`objects_round_trip_iff`**: which stores come back; `folder_renamed` has an object
  that does not.
-/

set_option autoImplicit false

namespace ScanPlatform.Dr.Objects

open PyStr

/-! ## Members of an archive -/

/-- What `tarfile` writes of a member: the name in its header, and the `path` of an extended header,
if there is one. -/
structure TarMember where
  name : List Char
  path : Option (List Char)
  data : Content

def isAscii (c : Char) : Bool := c.toNat < 128

/-- The name fits into a header. -/
def Short (name : List Char) : Prop := name.all isAscii = true ∧ name.length ≤ 100

instance (name : List Char) : Decidable (Short name) := inferInstanceAs (Decidable (_ ∧ _))

/-- `TarInfo(name)`, as `addfile` writes it. -/
def tarInfo (name : List Char) (data : Content) : TarMember :=
  if Short name then ⟨name, none, data⟩
  else ⟨(name.map fun c => if isAscii c then c else '?').take 100, some name, data⟩

/-- `member.name`: a header ends at the first NUL, and a path is read without the slashes at its
end. -/
def TarMember.memberName (m : TarMember) : List Char :=
  match m.path with
  | some path => rstrip '/' path
  | none => m.name.takeWhile (· ≠ '\x00')

/-! ## Stores -/

def objectName (o : StoredObject) : String × String := (o.bucket, o.key)

/-- A store whose objects have different names; `buckets` are the ones that are listed. -/
structure ObjectStore where
  buckets : List String
  objects : List StoredObject
  nodup : (objects.map objectName).Nodup

/-- `list_objects` of every listed bucket, with the data of each object. -/
def ObjectStore.listed (store : ObjectStore) : List StoredObject :=
  store.buckets.flatMap fun b => store.objects.filter (·.bucket = b)

/-- What a store keeps of an object under its name. -/
structure StoredValue where
  data : Content
  contentType : Option String
  metadata : List (String × String)
  deriving DecidableEq

def storedValue (o : StoredObject) : StoredValue := ⟨o.data, o.contentType, o.metadata⟩

/-- What the store has under a name in a listed bucket. -/
def ObjectStore.lookup (store : ObjectStore) (name : String × String) : Option StoredValue :=
  (store.listed.find? (objectName · = name)).map storedValue

/-- A store that is restored to. -/
structure Restored where
  buckets : List String
  objects : Table (String × String) StoredValue

def Restored.empty : Restored := ⟨[], fun _ => none⟩

/-- A write to a store; a strict one raises when there is no such bucket, and others make it. -/
def Restored.write (strict : Bool) (t : Restored) : StoreWrite → Option Restored
  | .createBucket b => some { t with buckets := t.buckets ++ [b] }
  | .putObject bucket key data contentType metadata =>
    if strict = true ∧ bucket ∉ t.buckets then none
    else some { t with objects := t.objects.set (bucket, key) ⟨data, contentType, metadata⟩ }

/-- What `backup_objects` leaves in the directory of a set. -/
structure ObjectBackup where
  archive : List TarMember
  buckets : List String
  entries : List ObjectEntry
  count : ℕ

/-- The name of the member of an object. -/
def memberPath (name : String × String) : List Char := name.1.toList ++ '/' :: name.2.toList

def objectEntry (o : StoredObject) : ObjectEntry := ⟨o.bucket, o.key, o.contentType, o.metadata⟩

def backupObjects (store : ObjectStore) : ObjectBackup where
  archive := store.listed.map fun o => tarInfo (memberPath (objectName o)) o.data
  buckets := store.buckets
  entries := store.listed.map objectEntry
  count := store.listed.length

/-- What is written for a member. -/
def putMember (entries : List ObjectEntry) (m : TarMember) : StoreWrite :=
  putFile entries (String.ofList m.memberName, m.data)

/-- The writes of `restore_objects` to a store without buckets. -/
def restoreWrites (backup : ObjectBackup) : List StoreWrite :=
  (backup.entries.map ObjectEntry.bucket).dedup.map .createBucket ++
    backup.archive.map (putMember backup.entries)

def restoreObjects (strict : Bool) (backup : ObjectBackup) : Option Restored :=
  (restoreWrites backup).foldlM (Restored.write strict) .empty

/-- `verify_objects_archive`, of a directory in which both files are there and can be read. -/
def verifyObjectsArchive (backup : ObjectBackup) : Bool := backup.archive.length = backup.count

/-- Every listed object comes back, and no other one. -/
structure RoundTrips (strict : Bool) (store : ObjectStore) : Prop where
  restored : ∃ t, restoreObjects strict (backupObjects store) = some t ∧ t.objects = store.lookup
  verified : verifyObjectsArchive (backupObjects store) = true

/-! ## Maps that shrink -/

/-- **A map that covers a list and makes its elements smaller, unless it maps them to fixed points,
is the identity on the list.** -/
theorem fixed_of_covered {α : Type*} [DecidableEq α] {f : α → α} (size : α → ℕ) {l : List α}
    (hcovers : ∀ a ∈ l, ∃ b ∈ l, f b = a) (hshrinks : ∀ a, size (f a) ≤ size a)
    (hfixed : ∀ a, size (f a) = size a → f (f a) = f a) : ∀ a ∈ l, f a = a := by
  intro a₀ ha₀
  by_contra hne₀
  -- The largest element that is not fixed is covered by a larger one.
  obtain ⟨a, ha, hmax⟩ := (l.toFinset.filter fun a => f a ≠ a).exists_max_image size
    ⟨a₀, Finset.mem_filter.mpr ⟨List.mem_toFinset.mpr ha₀, hne₀⟩⟩
  obtain ⟨hmem, hne⟩ := Finset.mem_filter.mp ha
  obtain ⟨b, hb, rfl⟩ := hcovers a (List.mem_toFinset.mp hmem)
  have hb_ne : f b ≠ b := fun heq => hne (congrArg f heq)
  have hle := hmax b (Finset.mem_filter.mpr ⟨List.mem_toFinset.mpr hb, hb_ne⟩)
  exact hne (hfixed b (Nat.le_antisymm (hshrinks b) hle))

/-! ## The names that are read -/

/-- The name that an object is restored under. -/
def decoded (name : String × String) : String × String :=
  Dr.partition (String.ofList (tarInfo (memberPath name) []).memberName)

/-- The bucket has no slash; a name that fits into a header has no NUL, and the key of another one
ends in no slash. -/
def Restorable (name : String × String) : Prop :=
  '/' ∉ name.1.toList ∧
    if Short (memberPath name) then '\x00' ∉ memberPath name
    else name.2 = "" ∨ name.2.toList.getLast? ≠ some '/'

/-- What `tarfile` makes of a name. -/
def readName (name : List Char) : List Char := (tarInfo name []).memberName

theorem readName_short {name : List Char} (h : Short name) :
    readName name = name.takeWhile (· ≠ '\x00') := by
  unfold readName tarInfo
  rw [if_pos h]
  rfl

theorem readName_long {name : List Char} (h : ¬ Short name) : readName name = rstrip '/' name := by
  unfold readName tarInfo
  rw [if_neg h]
  rfl

theorem readName_isPrefix (name : List Char) : readName name <+: name := by
  by_cases h : Short name
  · rw [readName_short h]
    exact List.takeWhile_prefix _
  · rw [readName_long h]
    exact List.rdropWhile_prefix _ name

theorem takeWhile_of_not_mem {s : List Char} (h : '/' ∉ s) : s.takeWhile (· ≠ '/') = s :=
  List.takeWhile_eq_self_iff.mpr fun c hc => by simpa using fun heq : c = '/' => h (heq ▸ hc)

theorem dropWhile_of_not_mem {s : List Char} (h : '/' ∉ s) : s.dropWhile (· ≠ '/') = [] :=
  List.dropWhile_eq_nil_iff.mpr fun c hc => by simpa using fun heq : c = '/' => h (heq ▸ hc)

/-- The path of what a name is split into. -/
theorem memberPath_partition (s : List Char) :
    memberPath (Dr.partition (String.ofList s)) = if '/' ∈ s then s else s ++ ['/'] := by
  unfold memberPath Dr.partition
  simp only [String.toList_ofList]
  split_ifs with hmem
  · obtain ⟨a, b, rfl, ha⟩ := List.eq_append_cons_of_mem hmem
    rw [takeWhile_append_sep ha, dropWhile_append_sep ha]
    rfl
  · rw [takeWhile_of_not_mem hmem, dropWhile_of_not_mem hmem]
    rfl

theorem slash_mem (name : String × String) : '/' ∈ memberPath name :=
  List.mem_append_right _ List.mem_cons_self

/-- The path of the name that an object is restored under. -/
theorem memberPath_decoded (name : String × String) :
    memberPath (decoded name) = if '/' ∈ readName (memberPath name) then readName (memberPath name)
      else readName (memberPath name) ++ ['/'] :=
  memberPath_partition _

/-- A name without a slash is shorter by one than the path that it is read of, at least. -/
theorem length_readName_lt {name : String × String} (h : '/' ∉ readName (memberPath name)) :
    (readName (memberPath name)).length < (memberPath name).length := by
  refine Nat.lt_of_le_of_ne (readName_isPrefix _).length_le fun heq => h ?_
  rw [(readName_isPrefix _).eq_of_length heq]
  exact slash_mem name

/-- **A name that is read is not longer.** -/
theorem decoded_shrinks (name : String × String) :
    (memberPath (decoded name)).length ≤ (memberPath name).length := by
  rw [memberPath_decoded]
  split_ifs with hmem
  · exact (readName_isPrefix _).length_le
  · rw [List.length_append, List.length_singleton]
    exact length_readName_lt hmem

/-- **A name that is read at its full length has the path that it is read of.** -/
theorem memberPath_decoded_of_length {name : String × String}
    (h : (memberPath (decoded name)).length = (memberPath name).length) :
    memberPath (decoded name) = memberPath name := by
  rw [memberPath_decoded] at h ⊢
  split_ifs at h ⊢ with hmem
  · exact (readName_isPrefix _).eq_of_length h
  · obtain ⟨rest, hrest⟩ := readName_isPrefix (memberPath name)
    have hone : rest.length = 1 := by
      have hlength := congrArg List.length hrest
      rw [List.length_append] at h hlength
      rw [List.length_singleton] at h
      omega
    obtain ⟨c, rfl⟩ := List.length_eq_one_iff.mp hone
    have hslash : '/' ∈ readName (memberPath name) ++ [c] := by
      rw [hrest]
      exact slash_mem name
    obtain rfl := List.mem_singleton.mp ((List.mem_append.mp hslash).resolve_left hmem)
    exact hrest

theorem decoded_of_memberPath {name name' : String × String}
    (h : memberPath name = memberPath name') : decoded name = decoded name' := by
  unfold decoded
  rw [h]

/-- A path is split into its name when the bucket has no slash. -/
theorem partition_memberPath {name : String × String} (h : '/' ∉ name.1.toList) :
    Dr.partition (String.ofList (memberPath name)) = name := by
  unfold memberPath Dr.partition
  simp only [String.toList_ofList]
  rw [takeWhile_append_sep h, dropWhile_append_sep h]
  simp only [List.drop_succ_cons, List.drop_zero, String.ofList_toList]

theorem partition_of_not_mem {s : List Char} (h : '/' ∉ s) :
    Dr.partition (String.ofList s) = (String.ofList s, "") := by
  unfold Dr.partition
  simp only [String.toList_ofList]
  rw [takeWhile_of_not_mem h, dropWhile_of_not_mem h]
  rfl

theorem slash_not_mem_bucket (s : String) : '/' ∉ (Dr.partition s).1.toList := by
  unfold Dr.partition
  rw [String.toList_ofList]
  intro hmem
  have hne := List.mem_takeWhile_imp hmem
  exact of_decide_eq_true hne rfl

theorem getLast?_memberPath {name : String × String} (h : name.2 ≠ "") :
    (memberPath name).getLast? = name.2.toList.getLast? := by
  have hne : name.2.toList ≠ [] := fun hnil => h (String.toList_eq_nil_iff.mp hnil)
  unfold memberPath
  rw [List.getLast?_append_of_ne_nil _ (List.cons_ne_nil _ _), List.getLast?_cons_of_ne_nil hne]

/-- A path that is read as it is. -/
theorem decoded_of_kept {name : String × String} (hbucket : '/' ∉ name.1.toList)
    (hkept : readName (memberPath name) = memberPath name) : decoded name = name := by
  have hsplit : decoded name = Dr.partition (String.ofList (readName (memberPath name))) := rfl
  rw [hsplit, hkept, partition_memberPath hbucket]

/-- Of a long path with an empty key the bucket is read, which is split into itself. -/
theorem decoded_of_bucket {name : String × String} (hbucket : '/' ∉ name.1.toList)
    (hlong : ¬ Short (memberPath name)) (hkey : name.2 = "") : decoded name = name := by
  have hslash : memberPath name = name.1.toList ++ List.replicate 1 '/' := by
    unfold memberPath
    rw [hkey]
    rfl
  have hlast : name.1.toList.getLast? ≠ some '/' := fun hlast =>
    hbucket (List.mem_of_getLast? hlast)
  have hread : readName (memberPath name) = name.1.toList := by
    rw [readName_long hlong]
    exact (rstrip_eq_iff hlast).mpr ⟨1, hslash⟩
  have hsplit : decoded name = Dr.partition (String.ofList (readName (memberPath name))) := rfl
  rw [hsplit, hread, partition_of_not_mem hbucket, String.ofList_toList, ← hkey]

theorem decoded_of_restorable {name : String × String} (h : Restorable name) :
    decoded name = name := by
  obtain ⟨hbucket, hname⟩ := h
  split_ifs at hname with hshort
  · refine decoded_of_kept hbucket ?_
    rw [readName_short hshort]
    exact List.takeWhile_eq_self_iff.mpr fun c hc => by
      simpa using fun heq : c = '\x00' => hname (heq ▸ hc)
  · by_cases hkey : name.2 = ""
    · exact decoded_of_bucket hbucket hshort hkey
    · refine decoded_of_kept hbucket ?_
      rw [readName_long hshort]
      refine rstrip_of_getLast?_ne ?_
      rw [getLast?_memberPath hkey]
      exact hname.resolve_left hkey

/-- A name that fits into a header is read without a NUL. -/
theorem nul_not_mem_readName {s : List Char} (h : Short s) : '\x00' ∉ readName s := by
  rw [readName_short h]
  intro hmem
  have hne := List.mem_takeWhile_imp hmem
  exact of_decide_eq_true hne rfl

theorem restorable_of_decoded {name : String × String} (h : decoded name = name) :
    Restorable name := by
  have hbucket : '/' ∉ name.1.toList := by
    have hfree : '/' ∉ (decoded name).1.toList := slash_not_mem_bucket _
    rwa [h] at hfree
  refine ⟨hbucket, ?_⟩
  have hpath := memberPath_decoded name
  rw [h] at hpath
  split_ifs at hpath ⊢ with hshort hmem hmem
  · rw [hpath]
    exact nul_not_mem_readName hshort
  · rw [hpath]
    intro hnul
    rcases List.mem_append.mp hnul with hnul | hnul
    · exact nul_not_mem_readName hshort hnul
    · exact absurd (List.mem_singleton.mp hnul) (by decide)
  · rw [readName_long hshort] at hpath
    by_cases hkey : name.2 = ""
    · exact .inl hkey
    · right
      rw [← getLast?_memberPath hkey, hpath]
      exact getLast?_rstrip_ne _ _
  · left
    have hsplit : decoded name = _ := partition_of_not_mem hmem
    rw [h] at hsplit
    rw [hsplit]

/-- **An object is restored under its own name** exactly when its name is restorable. -/
theorem decoded_iff (name : String × String) : decoded name = name ↔ Restorable name :=
  ⟨restorable_of_decoded, decoded_of_restorable⟩

/-! ## What is restored -/

/-- The objects after a write that does not raise. -/
def putTable (objects : Table (String × String) StoredValue) :
    StoreWrite → Table (String × String) StoredValue
  | .createBucket _ => objects
  | .putObject bucket key data contentType metadata =>
    objects.set (bucket, key) ⟨data, contentType, metadata⟩

/-- The name that is written under. -/
def target : StoreWrite → Option (String × String)
  | .createBucket _ => none
  | .putObject bucket key _ _ _ => some (bucket, key)

variable {strict : Bool} {t t' : Restored} {w : StoreWrite} {ws : List StoreWrite}

theorem write_objects (h : t.write strict w = some t') : t'.objects = putTable t.objects w := by
  cases w with
  | createBucket b =>
    obtain rfl := Option.some.inj h
    rfl
  | putObject bucket key data contentType metadata =>
    simp only [Restored.write] at h
    split_ifs at h
    obtain rfl := Option.some.inj h
    rfl

theorem foldlM_objects (h : ws.foldlM (Restored.write strict) t = some t') :
    t'.objects = ws.foldl putTable t.objects := by
  induction ws generalizing t with
  | nil =>
    obtain rfl := Option.some.inj h
    rfl
  | cons w ws ih =>
    rw [List.foldlM_cons] at h
    obtain ⟨t₁, hw, hws⟩ := Option.bind_eq_some_iff.mp h
    rw [ih hws, write_objects hw, List.foldl_cons]

/-- What is there after some writes was there before, or has been written. -/
theorem exists_target {objects : Table (String × String) StoredValue} {name : String × String}
    {v : StoredValue} (h : ws.foldl putTable objects name = some v) :
    objects name = some v ∨ ∃ w ∈ ws, target w = some name := by
  induction ws generalizing objects with
  | nil => exact .inl h
  | cons w ws ih =>
    rcases ih h with hbefore | ⟨w', hw', htarget⟩
    · cases w with
      | createBucket b => exact .inl hbefore
      | putObject bucket key data contentType metadata =>
        by_cases hname : name = (bucket, key)
        · exact .inr ⟨_, List.mem_cons_self, congrArg some hname.symm⟩
        · left
          have hsame : objects.set (bucket, key) ⟨data, contentType, metadata⟩ name = some v :=
            hbefore
          rwa [Table.set_of_ne _ _ hname] at hsame
    · exact .inr ⟨w', List.mem_cons_of_mem w hw', htarget⟩

theorem foldlM_creates (bs : List String) (t : Restored) :
    (bs.map StoreWrite.createBucket).foldlM (Restored.write strict) t =
      some { t with buckets := t.buckets ++ bs } := by
  induction bs generalizing t with
  | nil => simp
  | cons b bs ih =>
    rw [List.map_cons, List.foldlM_cons]
    show (some _ : Option Restored).bind _ = _
    rw [Option.bind_some, ih]
    simp

/-- Objects under their names, one after another. -/
def putAll (objects : Table (String × String) StoredValue) (l : List StoredObject) :
    Table (String × String) StoredValue :=
  l.foldl (fun objects o => objects.set (objectName o) (storedValue o)) objects

/-- The write of an object. -/
def putObject (o : StoredObject) : StoreWrite :=
  .putObject o.bucket o.key o.data o.contentType o.metadata

theorem foldlM_puts {l : List StoredObject} (h : ∀ o ∈ l, o.bucket ∈ t.buckets) :
    (l.map putObject).foldlM (Restored.write strict) t =
      some { t with objects := putAll t.objects l } := by
  induction l generalizing t with
  | nil => rfl
  | cons o l ih =>
    have hwrite : t.write strict (putObject o) =
        some { t with objects := t.objects.set (objectName o) (storedValue o) } :=
      if_neg fun hno => hno.2 (h o List.mem_cons_self)
    rw [List.map_cons, List.foldlM_cons, hwrite]
    exact ih fun o' ho' => h o' (List.mem_cons_of_mem o ho')

section

variable {l : List StoredObject} {objects : Table (String × String) StoredValue}
  {name : String × String}

/-- Under a name that no object has nothing is written. -/
theorem putAll_of_not_mem (h : ∀ o ∈ l, objectName o ≠ name) :
    putAll objects l name = objects name := by
  induction l generalizing objects with
  | nil => rfl
  | cons o l ih =>
    have hrest : putAll objects (o :: l) name =
        objects.set (objectName o) (storedValue o) name :=
      ih fun o' ho' => h o' (List.mem_cons_of_mem o ho')
    rw [hrest]
    exact Table.set_of_ne _ _ (h o List.mem_cons_self).symm

/-- Under the name of an object its value is written when no other one has the name. -/
theorem putAll_of_mem {o : StoredObject} (ho : o ∈ l)
    (hnames : ∀ o' ∈ l, objectName o' = objectName o → o' = o) :
    putAll objects l (objectName o) = some (storedValue o) := by
  induction l using List.reverseRecOn with
  | nil => cases ho
  | append_singleton l o' ih =>
    unfold putAll
    rw [List.foldl_append, List.foldl_cons, List.foldl_nil]
    by_cases hname : objectName o' = objectName o
    · rw [hnames o' (by simp) hname, Table.set_self]
    · rw [Table.set_of_ne _ _ (Ne.symm hname)]
      have hmem : o ∈ l := by
        rcases List.mem_append.mp ho with hmem | hlast
        · exact hmem
        · exact absurd (congrArg objectName (List.mem_singleton.mp hlast).symm) hname
      exact ih hmem fun o'' ho'' => hnames o'' (List.mem_append_left _ ho'')

end

variable {store : ObjectStore} {o o' : StoredObject}

theorem mem_objects (h : o ∈ store.listed) : o ∈ store.objects := by
  obtain ⟨b, -, hmem⟩ := List.mem_flatMap.mp h
  exact List.mem_of_mem_filter hmem

/-- A listed object is the only one with its name. -/
theorem eq_of_name (ho : o ∈ store.listed) (ho' : o' ∈ store.listed)
    (h : objectName o' = objectName o) : o' = o :=
  List.inj_on_of_nodup_map store.nodup (mem_objects ho') (mem_objects ho) h

theorem lookup_listed (h : o ∈ store.listed) :
    store.lookup (objectName o) = some (storedValue o) := by
  unfold ObjectStore.lookup
  cases hfind : store.listed.find? (objectName · = objectName o) with
  | none => exact absurd (List.find?_eq_none.mp hfind o h) (by simp)
  | some o' =>
    have hname := List.find?_some hfind
    rw [eq_of_name h (List.mem_of_find?_eq_some hfind) (of_decide_eq_true hname)]
    rfl

theorem lookup_of_not_mem {name : String × String} (h : ∀ o ∈ store.listed, objectName o ≠ name) :
    store.lookup name = none := by
  unfold ObjectStore.lookup
  rw [List.find?_eq_none.mpr fun o ho => by simpa using h o ho]
  rfl

/-! ## Which stores come back -/

theorem memberName_tarInfo (path : List Char) (data : Content) :
    (tarInfo path data).memberName = readName path := by
  unfold readName tarInfo
  split_ifs <;> rfl

theorem tarInfo_data (path : List Char) (data : Content) : (tarInfo path data).data = data := by
  unfold tarInfo
  split_ifs <;> rfl

/-- The member of an object is written under the name that is read. -/
theorem target_putMember (entries : List ObjectEntry) (o : StoredObject) :
    target (putMember entries (tarInfo (memberPath (objectName o)) o.data)) =
      some (decoded (objectName o)) := by
  unfold putMember putFile
  rw [memberName_tarInfo]
  dsimp only
  split <;> rfl

/-- **The member of an object whose name is read as it is** is written with all that the manifest
keeps. -/
theorem putMember_listed (ho : o ∈ store.listed) (h : decoded (objectName o) = objectName o) :
    putMember (store.listed.map objectEntry) (tarInfo (memberPath (objectName o)) o.data) =
      putObject o := by
  have hsplit : Dr.partition (String.ofList (readName (memberPath (objectName o)))) =
      (o.bucket, o.key) := h
  unfold putMember putFile
  rw [memberName_tarInfo, hsplit, tarInfo_data]
  dsimp only
  split
  · next entry hfind =>
    have hmem := List.mem_reverse.mp (List.mem_of_find?_eq_some hfind)
    obtain ⟨o', ho', rfl⟩ := List.mem_map.mp hmem
    have hfound := List.find?_some hfind
    obtain ⟨hbucket, hkey⟩ := of_decide_eq_true hfound
    rw [eq_of_name ho ho' (Prod.ext hbucket hkey)]
    rfl
  · next hfind =>
    have hentry := List.find?_eq_none.mp hfind (objectEntry o)
      (List.mem_reverse.mpr (List.mem_map_of_mem ho))
    exact absurd (decide_eq_true ⟨rfl, rfl⟩) hentry

/-- Every listed name is one that is read, when the store comes back. -/
theorem covered_of_roundTrips (h : RoundTrips strict store) :
    ∀ name ∈ store.listed.map objectName, ∃ name' ∈ store.listed.map objectName,
      decoded name' = name := by
  obtain ⟨t, ht, hobjects⟩ := h.restored
  intro name hname
  obtain ⟨o, ho, rfl⟩ := List.mem_map.mp hname
  have hvalue : (restoreWrites (backupObjects store)).foldl putTable Restored.empty.objects
      (objectName o) = some (storedValue o) := by
    rw [← foldlM_objects ht, hobjects]
    exact lookup_listed ho
  rcases exists_target hvalue with hempty | ⟨w, hw, htarget⟩
  · cases hempty
  · rcases List.mem_append.mp hw with hcreate | hput
    · obtain ⟨b, -, rfl⟩ := List.mem_map.mp hcreate
      cases htarget
    · obtain ⟨m, hm, rfl⟩ := List.mem_map.mp hput
      obtain ⟨o', ho', rfl⟩ := List.mem_map.mp hm
      rw [target_putMember] at htarget
      exact ⟨objectName o', List.mem_map_of_mem ho', Option.some.inj htarget⟩

/-- What is restored when every listed name is read as it is. -/
theorem restored_of_decoded (h : ∀ o ∈ store.listed, decoded (objectName o) = objectName o) :
    ∃ t, restoreObjects strict (backupObjects store) = some t ∧ t.objects = store.lookup := by
  have hputs : (backupObjects store).archive.map (putMember (backupObjects store).entries) =
      store.listed.map putObject := by
    unfold backupObjects
    rw [List.map_map]
    exact List.map_congr_left fun o ho => putMember_listed ho (h o ho)
  unfold restoreObjects restoreWrites
  rw [hputs, List.foldlM_append, foldlM_creates]
  refine ⟨_, foldlM_puts fun o ho => ?_, ?_⟩
  · have hentry : o.bucket ∈ ((backupObjects store).entries.map ObjectEntry.bucket).dedup :=
      List.mem_dedup.mpr (List.mem_map_of_mem (List.mem_map_of_mem ho))
    exact List.mem_append_right _ hentry
  · funext name
    by_cases hname : ∃ o ∈ store.listed, objectName o = name
    · obtain ⟨o, ho, rfl⟩ := hname
      rw [lookup_listed ho]
      exact putAll_of_mem ho fun o' ho' heq => eq_of_name ho ho' heq
    · have hno : ∀ o ∈ store.listed, objectName o ≠ name := fun o ho heq => hname ⟨o, ho, heq⟩
      rw [lookup_of_not_mem hno]
      exact putAll_of_not_mem hno

/-- **The objects of a store come back** exactly when each of them that is listed has a restorable
name; the archive is verified in any case. -/
theorem objects_round_trip_iff (strict : Bool) (store : ObjectStore) :
    RoundTrips strict store ↔ ∀ o ∈ store.listed, Restorable (objectName o) := by
  constructor
  · intro h o ho
    have hfixed := fixed_of_covered (fun name => (memberPath name).length)
      (covered_of_roundTrips h) decoded_shrinks
      fun name hsame => decoded_of_memberPath (memberPath_decoded_of_length hsame)
    exact (decoded_iff _).mp (hfixed _ (List.mem_map_of_mem ho))
  · intro h
    refine ⟨restored_of_decoded fun o ho => (decoded_iff _).mpr (h o ho), ?_⟩
    unfold verifyObjectsArchive backupObjects
    rw [List.length_map]
    exact decide_eq_true rfl

/-! ## A folder with a name beyond ASCII -/

def folderStore : ObjectStore where
  buckets := ["b"]
  objects := [⟨"b", "é/", [], none, []⟩]
  nodup := by decide

/-- **The folder is restored under another key.** -/
theorem folder_renamed :
    ¬ RoundTrips true folderStore ∧ ¬ RoundTrips false folderStore := by
  have hno : ∀ strict, ¬ RoundTrips strict folderStore := by
    intro strict h
    have hlisted : folderStore.listed.map objectName = [("b", "é/")] := by decide
    have hcovered := covered_of_roundTrips h
    rw [hlisted] at hcovered
    obtain ⟨name, hname, hread⟩ := hcovered ("b", "é/") List.mem_cons_self
    rw [List.mem_singleton.mp hname] at hread
    exact absurd hread (by decide)
  exact ⟨hno true, hno false⟩

end ScanPlatform.Dr.Objects
