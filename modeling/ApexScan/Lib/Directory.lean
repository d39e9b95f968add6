import ApexScan.Lib.Dict

/-!
# Directories with hard links

A directory maps names to inodes, and an inode holds the content of a file.  Two names may share an
inode: writing through one of them is then seen through the other.  A directory is listed in no
specified order.

* `Directory` with `read`, `write`, `link` and `unlink`, each one atomic file-system call.
* `Glob` — an order of listing.
* `read_write_of_absent`, `read_link`, `read_unlink` — what a call does to the other names.
-/

set_option autoImplicit false

namespace ApexScan.Lib

/-- Names, each bound to an inode, and the contents of the inodes. -/
structure Directory (ν γ : Type) [DecidableEq ν] where
  links : Dict ν ℕ
  inodes : List γ
  nodup : (links.map (·.1)).Nodup
  bound : ∀ name inode, links.get name = some inode → inode < inodes.length

/-- Why `link` fails. -/
inductive LinkError where
  | fileNotFound
  | fileExists
  deriving DecidableEq

namespace Directory

variable {ν γ : Type} [DecidableEq ν]

/-- A directory without entries. -/
def empty : Directory ν γ where
  links := []
  inodes := []
  nodup := List.nodup_nil
  bound := by
    intro _ _ h
    cases h

def names (d : Directory ν γ) : List ν := d.links.map (·.1)

/-- The content of a file; `none` when there is none of that name. -/
def read (d : Directory ν γ) (name : ν) : Option γ := (d.links.get name).bind (d.inodes[·]?)

/-- Opens a file for writing, empties it and writes the content: an existing file keeps its inode. -/
def write (d : Directory ν γ) (name : ν) (content : γ) : Directory ν γ :=
  match d.links.get name with
  | some inode =>
    { links := d.links
      inodes := d.inodes.set inode content
      nodup := d.nodup
      bound := by
        intro other i h
        rw [List.length_set]
        exact d.bound other i h }
  | none =>
    { links := d.links.set name d.inodes.length
      inodes := d.inodes ++ [content]
      nodup := Dict.nodup_keys_set d.nodup _ _
      bound := by
        intro other i h
        rw [List.length_append, List.length_singleton]
        rw [Dict.get_set] at h
        split at h
        · cases h
          exact Nat.lt_succ_self _
        · exact Nat.lt_succ_of_lt (d.bound other i h) }

/-- `os.link`: a second name for the inode of `source`, if `target` is not taken. -/
def link (d : Directory ν γ) (source target : ν) : Except LinkError (Directory ν γ) :=
  match h : d.links.get source with
  | none => .error .fileNotFound
  | some inode =>
    if (d.links.get target).isSome then .error .fileExists
    else .ok
      { links := d.links.set target inode
        inodes := d.inodes
        nodup := Dict.nodup_keys_set d.nodup _ _
        bound := by
          intro other i hget
          rw [Dict.get_set] at hget
          split at hget
          · cases hget
            exact d.bound source _ h
          · exact d.bound other i hget }

/-- `unlink(missing_ok=True)`. -/
def unlink (d : Directory ν γ) (name : ν) : Directory ν γ where
  links := d.links.restrict (· ≠ name)
  inodes := d.inodes
  nodup := Dict.nodup_keys_restrict d.nodup _
  bound := by
    intro other i h
    rw [Dict.get_restrict] at h
    split at h
    · exact d.bound other i h
    · cases h

/-- A listing of the names of a directory, in some order. -/
structure Glob (ν γ : Type) [DecidableEq ν] where
  order : Directory ν γ → List ν
  perm : ∀ d, (order d).Perm d.names

/-- The listing in the order in which the entries were made. -/
def entryOrder : Glob ν γ := ⟨names, fun _ => List.Perm.refl _⟩

/-! ## What the calls do -/

@[simp] theorem read_empty (name : ν) : (empty : Directory ν γ).read name = none := rfl

theorem get_eq_none_iff (d : Directory ν γ) (name : ν) :
    d.links.get name = none ↔ d.read name = none := by
  unfold read
  cases h : d.links.get name with
  | none => simp
  | some inode =>
    have hlt := d.bound name inode h
    simp [hlt]

theorem mem_names_iff (d : Directory ν γ) (name : ν) : name ∈ d.names ↔ (d.read name).isSome := by
  unfold names
  rw [Dict.mem_keys_iff, Option.isSome_iff_ne_none, Option.isSome_iff_ne_none, Ne, get_eq_none_iff]

theorem mem_order_iff (glob : Glob ν γ) (d : Directory ν γ) (name : ν) :
    name ∈ glob.order d ↔ (d.read name).isSome := by
  rw [(glob.perm d).mem_iff, mem_names_iff]

@[simp] theorem read_write_self (d : Directory ν γ) (name : ν) (content : γ) :
    (d.write name content).read name = some content := by
  unfold write
  split
  · rename_i inode h
    have hlt := d.bound name inode h
    unfold read
    rw [h, Option.bind_some, List.getElem?_set_self hlt]
  · unfold read
    rw [Dict.get_set_self, Option.bind_some, List.getElem?_concat_length]

/-- A new file has an inode of its own. -/
theorem read_write_of_absent {d : Directory ν γ} {name other : ν} (habsent : d.read name = none)
    (hne : other ≠ name) (content : γ) : (d.write name content).read other = d.read other := by
  have hnone := (get_eq_none_iff d name).mpr habsent
  unfold write
  split
  · rename_i inode h
    rw [h] at hnone
    cases hnone
  · unfold read
    simp only
    rw [Dict.get_set_ne _ _ hne.symm]
    cases h : d.links.get other with
    | none => rfl
    | some inode =>
      have hlt := d.bound other inode h
      rw [Option.bind_some, Option.bind_some, List.getElem?_append_left hlt]

theorem link_of_taken {d : Directory ν γ} {source target : ν} {content : γ}
    (hsource : d.read source = some content) (htarget : (d.read target).isSome) :
    d.link source target = .error .fileExists := by
  have htaken : (d.links.get target).isSome := by
    rwa [Option.isSome_iff_ne_none, Ne, get_eq_none_iff, ← Ne, ← Option.isSome_iff_ne_none]
  unfold link
  split
  · rename_i hnone
    rw [get_eq_none_iff, hsource] at hnone
    cases hnone
  · rw [if_pos htaken]

/-- A successful link adds one name, for the content of the source. -/
theorem link_of_free {d : Directory ν γ} {source target : ν} {content : γ}
    (hsource : d.read source = some content) (htarget : d.read target = none) :
    ∃ d', d.link source target = .ok d' ∧ d'.read target = some content ∧
      ∀ other, other ≠ target → d'.read other = d.read other := by
  have hfree := (get_eq_none_iff d target).mpr htarget
  unfold link
  split
  · rename_i hnone
    rw [get_eq_none_iff, hsource] at hnone
    cases hnone
  · rename_i inode hinode
    rw [hfree, if_neg (by simp)]
    refine ⟨_, rfl, ?_, ?_⟩
    · unfold read at hsource ⊢
      rw [hinode] at hsource
      simp only [Dict.get_set_self]
      exact hsource
    · intro other hne
      unfold read
      simp only
      rw [Dict.get_set_ne _ _ hne.symm]

@[simp] theorem read_unlink_self (d : Directory ν γ) (name : ν) : (d.unlink name).read name = none := by
  unfold read unlink
  simp [Dict.get_restrict]

theorem read_unlink_of_ne (d : Directory ν γ) {name other : ν} (hne : other ≠ name) :
    (d.unlink name).read other = d.read other := by
  unfold read unlink
  simp [Dict.get_restrict, hne]

end Directory

end ApexScan.Lib
