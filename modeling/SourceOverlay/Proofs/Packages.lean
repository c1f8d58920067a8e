import Mathlib.Data.List.Nodup
import Mathlib.Data.Nat.Find
import Mathlib.Logic.Function.Iterate
import SourceOverlay.Proofs.Spellings

/-!
# The way up to a package

A bare module name is looked for next to the importing file and next to every directory around it.
The directory of a directory need not be a shorter text: that of `\` is `/`, and that of `/` is `/`
again. The way up ends all the same, because each step leads to a shorter text or to one of the two
names at which it ends, and so it comes through no directory twice. `Search` writes the search down
as it goes, one rule for each way to leave a directory, and the first of the candidates that is
there is what every search ends with.
-/

set_option autoImplicit false

namespace SourceOverlay.Import

open Name (folder)

/-! ### One directory -/

def Lacks (host : Host) (name dir : String) : Prop :=
  host.has (packageIn dir name ++ ".d.ts") = false ∧
    host.has (packageIn dir name ++ "/index.d.ts") = false

/-- The module is the declaration file of the package next to this directory, or its index if there
is no such file. -/
inductive Holds (host : Host) (name dir : String) : Module → Prop
  | file (h : host.has (packageIn dir name ++ ".d.ts") = true) :
      Holds host name dir ⟨packageIn dir name ++ ".d.ts", ".d.ts", true⟩
  | index (hfile : host.has (packageIn dir name ++ ".d.ts") = false)
      (h : host.has (packageIn dir name ++ "/index.d.ts") = true) :
      Holds host name dir ⟨packageIn dir name ++ "/index.d.ts", ".d.ts", true⟩

def firstIn? (host : Host) (name dir : String) : Option Module :=
  (packageFiles (packageIn dir name)).find? fun m => host.has m.file

section Directory

variable {host : Host} {name dir : String}

theorem firstIn?_eq_some_iff {m : Module} :
    firstIn? host name dir = some m ↔ Holds host name dir m := by
  simp only [firstIn?, packageFiles, List.map_cons, List.map_nil, List.find?_cons, List.find?_nil]
  constructor
  · intro h
    split at h
    · next hfile =>
      obtain rfl := Option.some.inj h
      exact .file hfile
    · next hfile =>
      split at h
      · next hindex =>
        obtain rfl := Option.some.inj h
        exact .index hfile hindex
      · cases h
  · intro h
    cases h with
    | file hfile =>
      rw [hfile]
      rfl
    | index hfile hindex =>
      rw [hfile, hindex]
      rfl

theorem firstIn?_eq_none_iff : firstIn? host name dir = none ↔ Lacks host name dir := by
  simp [firstIn?, packageFiles, Lacks]

end Directory

/-! ### The way up -/

def AtTop (dir : String) : Prop := dir = "" ∨ dir = "/"

instance (dir : String) : Decidable (AtTop dir) := inferInstanceAs (Decidable (_ ∨ _))

theorem isTop_toList {dir : String} : isTop dir.toList = true ↔ AtTop dir := by
  have hroot : dir.toList = ['/'] ↔ dir = "/" := by
    rw [← String.toList_inj]
    rfl
  simp [isTop, AtTop, hroot]

theorem climb_folder {dir : String} (h : ¬ AtTop dir) :
    climb (folder dir).toList < climb dir.toList := by
  rw [folder, String.toList_ofList]
  exact climb_folder_lt (Bool.eq_false_iff.mpr (mt isTop_toList.mp h))

theorem exists_atTop (dir : String) : ∃ n, AtTop (folder^[n] dir) := by
  -- On the rest of the way and not on the length of the text, which stays the same from `\` to `/`.
  induction hclimb : climb dir.toList using Nat.strongRecOn generalizing dir with
  | ind c ih =>
    by_cases htop : AtTop dir
    · exact ⟨0, htop⟩
    · obtain ⟨n, hn⟩ := ih _ (hclimb ▸ climb_folder htop) (folder dir) rfl
      exact ⟨n + 1, by rwa [Function.iterate_succ_apply]⟩

/-- Below the top every step leads to a directory that has less of the way before it. -/
theorem climb_iterate_lt {dir : String} {i j : Nat} (hij : i < j)
    (h : ∀ k < j, ¬ AtTop (folder^[k] dir)) :
    climb (folder^[j] dir).toList < climb (folder^[i] dir).toList := by
  induction j with
  | zero => omega
  | succ j ih =>
    have hstep : climb (folder^[j + 1] dir).toList < climb (folder^[j] dir).toList := by
      rw [Function.iterate_succ_apply']
      exact climb_folder (h j (Nat.lt_succ_self j))
    rcases Nat.lt_succ_iff_lt_or_eq.mp hij with hlt | rfl
    · exact hstep.trans (ih hlt fun k hk => h k (Nat.lt_succ_of_lt hk))
    · exact hstep

def ancestor (importer : String) (k : Nat) : String := folder^[k] (folder importer)

structure Way (importer : String) (n : Nat) : Prop where
  top : AtTop (ancestor importer n)
  below : ∀ k < n, ¬ AtTop (ancestor importer k)

theorem exists_way (importer : String) : ∃ n, Way importer n := by
  classical
  have h := exists_atTop (folder importer)
  exact ⟨Nat.find h, Nat.find_spec h, fun k hk => Nat.find_min h hk⟩

def passed (importer : String) (k : Nat) : List String :=
  (List.range (k + 1)).map (ancestor importer)

theorem Way.nodup_passed {importer : String} {n : Nat} (h : Way importer n) :
    (passed importer n).Nodup := by
  refine List.Nodup.map_on ?_ List.nodup_range
  have hne : ∀ i j, i < j → j ≤ n → ancestor importer i ≠ ancestor importer j := by
    intro i j hij hj heq
    have hlt := climb_iterate_lt hij fun k hk => h.below k (Nat.lt_of_lt_of_le hk hj)
    rw [← ancestor, ← ancestor, heq] at hlt
    exact Nat.lt_irrefl _ hlt
  intro i hi j hj heq
  simp only [List.mem_range] at hi hj
  rcases Nat.lt_trichotomy i j with hij | hij | hij
  · exact absurd heq (hne i j hij (by omega))
  · exact hij
  · exact absurd heq.symm (hne j i hij (by omega))

/-- The directories that are listed for a search are those of the way. -/
theorem Way.enclosing_eq {importer : String} {n : Nat} (h : Way importer n) :
    (enclosing (folder importer).toList).map String.ofList = passed importer n := by
  have hlisted : ∀ (n : Nat) (dir : String), AtTop (folder^[n] dir) →
      (∀ k < n, ¬ AtTop (folder^[k] dir)) →
      (enclosing dir.toList).map String.ofList = (List.range (n + 1)).map (folder^[·] dir) := by
    intro n
    induction n with
    | zero =>
      intro dir htop _
      have hdir : AtTop dir := htop
      rw [enclosing, if_pos (isTop_toList.mpr hdir)]
      simp
    | succ n ih =>
      intro dir htop hbelow
      have hdir : ¬ AtTop dir := hbelow 0 (Nat.succ_pos n)
      have hrest := ih (folder dir) (by rwa [← Function.iterate_succ_apply]) (by
        intro k hk
        rw [← Function.iterate_succ_apply]
        exact hbelow (k + 1) (Nat.succ_lt_succ hk))
      rw [enclosing, if_neg (mt isTop_toList.mp hdir), List.range_succ_eq_map, List.map_cons,
        List.map_cons, String.ofList_toList, List.map_map]
      rw [folder, String.toList_ofList] at hrest
      rw [hrest]
      rfl
  exact hlisted n _ h.top h.below

/-! ### The search -/

inductive Search (host : Host) (name : String) : String → List String → Option Module → Prop
  | found {dir : String} {m : Module} (h : Holds host name dir m) :
      Search host name dir [dir] (some m)
  | ended {dir : String} (h : Lacks host name dir) (htop : AtTop dir) :
      Search host name dir [dir] none
  | up {dir : String} {visited : List String} {result : Option Module}
      (h : Lacks host name dir) (htop : ¬ AtTop dir)
      (hrest : Search host name (folder dir) visited result) :
      Search host name dir (dir :: visited) result

def searchFrom? (host : Host) (name dir : String) : Option Module :=
  (enclosing dir.toList).findSome? fun d => firstIn? host name (String.ofList d)

def lookUpPackage? (host : Host) (importer name : String) : Option Module :=
  (packageCandidates importer name).find? fun m => host.has m.file

section Search

variable {host : Host} {name dir : String} {visited visited' : List String}
  {result result' : Option Module}

theorem lookUpPackage?_eq (host : Host) (importer name : String) :
    lookUpPackage? host importer name = searchFrom? host name (folder importer) := by
  rw [lookUpPackage?, packageCandidates, List.find?_flatMap]
  rfl

theorem searchFrom?_of_atTop (h : AtTop dir) :
    searchFrom? host name dir = firstIn? host name dir := by
  rw [searchFrom?, enclosing, if_pos (isTop_toList.mpr h)]
  simp

theorem searchFrom?_of_not_atTop (h : ¬ AtTop dir) :
    searchFrom? host name dir =
      (firstIn? host name dir).or (searchFrom? host name (folder dir)) := by
  rw [searchFrom?, enclosing, if_neg (mt isTop_toList.mp h), List.findSome?_cons,
    String.ofList_toList, searchFrom?, folder, String.toList_ofList]
  cases firstIn? host name dir <;> rfl

theorem Search.result_eq (h : Search host name dir visited result) :
    result = searchFrom? host name dir := by
  induction h with
  | @found dir m h =>
    have hfirst := firstIn?_eq_some_iff.mpr h
    by_cases htop : AtTop dir
    · rw [searchFrom?_of_atTop htop, hfirst]
    · rw [searchFrom?_of_not_atTop htop, hfirst, Option.some_or]
  | ended h htop => rw [searchFrom?_of_atTop htop, firstIn?_eq_none_iff.mpr h]
  | up h htop _ ih =>
    rw [searchFrom?_of_not_atTop htop, firstIn?_eq_none_iff.mpr h, Option.none_or, ih]

theorem exists_search (host : Host) (name dir : String) :
    ∃ visited, Search host name dir visited (searchFrom? host name dir) := by
  induction hclimb : climb dir.toList using Nat.strongRecOn generalizing dir with
  | ind c ih =>
    cases hfirst : firstIn? host name dir with
    | some m =>
      have hsearch := Search.found (firstIn?_eq_some_iff.mp hfirst)
      exact ⟨[dir], hsearch.result_eq ▸ hsearch⟩
    | none =>
      have hlacks := firstIn?_eq_none_iff.mp hfirst
      by_cases htop : AtTop dir
      · have hsearch := Search.ended hlacks htop
        exact ⟨[dir], hsearch.result_eq ▸ hsearch⟩
      · obtain ⟨visited, hrest⟩ := ih _ (hclimb ▸ climb_folder htop) (folder dir) rfl
        have hsearch := Search.up hlacks htop hrest
        exact ⟨dir :: visited, hsearch.result_eq ▸ hsearch⟩

/-- How a search is left in its last directory. -/
def Leaves (host : Host) (name dir : String) : Option Module → Prop
  | some m => Holds host name dir m
  | none => Lacks host name dir ∧ AtTop dir

theorem Search.cases (h : Search host name dir visited result) :
    ∃ k, visited = (List.range (k + 1)).map (folder^[·] dir) ∧
      (∀ j < k, Lacks host name (folder^[j] dir) ∧ ¬ AtTop (folder^[j] dir)) ∧
      Leaves host name (folder^[k] dir) result := by
  induction h with
  | found h => exact ⟨0, rfl, by simp, h⟩
  | ended h htop => exact ⟨0, rfl, by simp, h, htop⟩
  | up h htop _ ih =>
    obtain ⟨k, rfl, hbelow, hleaves⟩ := ih
    refine ⟨k + 1, ?_, ?_, hleaves⟩
    · rw [List.range_succ_eq_map (n := k + 1), List.map_cons, List.map_map]
      rfl
    · intro j hj
      cases j with
      | zero => exact ⟨h, htop⟩
      | succ j => exact hbelow j (Nat.succ_lt_succ_iff.mp hj)

theorem search_of_leaves {k : Nat}
    (hbelow : ∀ j < k, Lacks host name (folder^[j] dir) ∧ ¬ AtTop (folder^[j] dir))
    (h : Leaves host name (folder^[k] dir) result) :
    ∃ visited, Search host name dir visited result := by
  induction k generalizing dir with
  | zero =>
    cases result with
    | some m => exact ⟨_, .found h⟩
    | none => exact ⟨_, .ended h.1 h.2⟩
  | succ k ih =>
    obtain ⟨hlacks, htop⟩ := hbelow 0 (Nat.succ_pos k)
    obtain ⟨visited, hrest⟩ := @ih (folder dir) (fun j hj => hbelow (j + 1) (Nat.succ_lt_succ hj)) h
    exact ⟨_, .up hlacks htop hrest⟩

end Search

section Way

variable {host : Host} {importer name : String} {n : Nat} {visited : List String}
  {result : Option Module}

/-- A search comes through the directories of the way up to the one where it is left. -/
theorem Way.visited_eq (hway : Way importer n)
    (h : Search host name (folder importer) visited result) :
    ∃ k ≤ n, visited = passed importer k ∧ (∀ j < k, Lacks host name (ancestor importer j)) ∧
      Leaves host name (ancestor importer k) result ∧ (result = none → k = n) := by
  obtain ⟨k, hvisited, hbelow, hleaves⟩ := h.cases
  have hk : k ≤ n := Nat.le_of_not_lt fun hlt => (hbelow n hlt).2 hway.top
  refine ⟨k, hk, hvisited, fun j hj => (hbelow j hj).1, hleaves, ?_⟩
  rintro rfl
  exact Nat.le_antisymm hk (Nat.le_of_not_lt fun hlt => hway.below k hlt hleaves.2)

theorem Way.search_of_leaves (hway : Way importer n) {k : Nat} (hk : k ≤ n)
    (hbelow : ∀ j < k, Lacks host name (ancestor importer j))
    (h : Leaves host name (ancestor importer k) result) :
    lookUpPackage? host importer name = result := by
  have hpassed : ∀ j < k, Lacks host name (folder^[j] (folder importer)) ∧
      ¬ AtTop (folder^[j] (folder importer)) :=
    fun j hj => ⟨hbelow j hj, hway.below j (Nat.lt_of_lt_of_le hj hk)⟩
  obtain ⟨visited, hsearch⟩ := Import.search_of_leaves hpassed h
  rw [lookUpPackage?_eq, hsearch.result_eq]

theorem Way.lookUpPackage?_eq_some_iff (hway : Way importer n) {m : Module} :
    lookUpPackage? host importer name = some m ↔
      ∃ k ≤ n, Holds host name (ancestor importer k) m ∧
        ∀ j < k, Lacks host name (ancestor importer j) := by
  constructor
  · intro h
    obtain ⟨visited, hsearch⟩ := exists_search host name (folder importer)
    rw [← lookUpPackage?_eq, h] at hsearch
    obtain ⟨k, hk, -, hbelow, hholds, -⟩ := hway.visited_eq hsearch
    exact ⟨k, hk, hholds, hbelow⟩
  · rintro ⟨k, hk, hholds, hbelow⟩
    exact hway.search_of_leaves hk hbelow hholds

theorem Way.lookUpPackage?_eq_none_iff (hway : Way importer n) :
    lookUpPackage? host importer name = none ↔
      ∀ k ≤ n, Lacks host name (ancestor importer k) := by
  constructor
  · intro h k hk
    obtain ⟨visited, hsearch⟩ := exists_search host name (folder importer)
    rw [← lookUpPackage?_eq, h] at hsearch
    obtain ⟨last, -, -, hbelow, hleaves, hlast⟩ := hway.visited_eq hsearch
    obtain rfl := hlast rfl
    rcases Nat.lt_or_eq_of_le hk with hlt | rfl
    · exact hbelow k hlt
    · exact hleaves.1
  · intro h
    exact hway.search_of_leaves (Nat.le_refl n) (fun j hj => h j (Nat.le_of_lt hj))
      ⟨h n (Nat.le_refl n), hway.top⟩

end Way

theorem lookUp?_of_isBareModule (host : Host) (importer : String) {name : String}
    (h : Name.IsBareModule name) :
    lookUp? host importer name = lookUpPackage? host importer name := by
  rw [lookUp?, candidates, Name.locate?_eq_none_iff.mpr h, lookUpPackage?]

/-- The way up from a file ends and comes through no directory twice. A search for a package goes
along it and ends in the first directory that holds the package, or at the top if there is none,
and a bare module name leads to what it finds. -/
theorem lookUpPackage?_nearest (host : Host) (importer name : String) :
    ∃ n, Way importer n ∧ (passed importer n).Nodup ∧
      (enclosing (folder importer).toList).map String.ofList = passed importer n ∧
      (∃ visited, Search host name (folder importer) visited
        (lookUpPackage? host importer name)) ∧
      (∀ visited result, Search host name (folder importer) visited result →
        result = lookUpPackage? host importer name ∧
          ∃ k ≤ n, visited = passed importer k ∧ (result = none → k = n)) ∧
      (∀ m, lookUpPackage? host importer name = some m ↔
        ∃ k ≤ n, Holds host name (ancestor importer k) m ∧
          ∀ j < k, Lacks host name (ancestor importer j)) ∧
      (lookUpPackage? host importer name = none ↔
        ∀ k ≤ n, Lacks host name (ancestor importer k)) ∧
      (Name.IsBareModule name →
        lookUp? host importer name = lookUpPackage? host importer name) := by
  obtain ⟨n, hway⟩ := exists_way importer
  refine ⟨n, hway, hway.nodup_passed, hway.enclosing_eq, ?_, ?_,
    fun _ => hway.lookUpPackage?_eq_some_iff, hway.lookUpPackage?_eq_none_iff,
    lookUp?_of_isBareModule host importer⟩
  · rw [lookUpPackage?_eq]
    exact exists_search host name (folder importer)
  · intro visited result h
    obtain ⟨k, hk, hvisited, -, -, hlast⟩ := hway.visited_eq h
    exact ⟨h.result_eq.trans (lookUpPackage?_eq host importer name).symm, k, hk, hvisited, hlast⟩

/-- The directory of the file is a backslash, and the directory of that is the root. -/
theorem lookUpPackage?_nearest_backslash :
    let host : Host := ⟨(· == "/node_modules/lodash/index.d.ts"), fun _ => none⟩
    Name.IsBareModule "lodash" ∧ ancestor "\\\\main.ts" 0 = "\\" ∧ ancestor "\\\\main.ts" 1 = "/" ∧
      lookUp? host "\\\\main.ts" "lodash" =
        some ⟨"/node_modules/lodash/index.d.ts", ".d.ts", true⟩ := by
  intro host
  have hbare : Name.IsBareModule "lodash" :=
    ⟨by decide +kernel, by decide +kernel, by decide +kernel⟩
  have hfirst : ancestor "\\\\main.ts" 0 = "\\" := by decide +kernel
  have hsecond : ancestor "\\\\main.ts" 1 = "/" := by decide +kernel
  obtain ⟨n, hway, -, -, -, -, hsome, -, hlookUp⟩ :=
    lookUpPackage?_nearest host "\\\\main.ts" "lodash"
  have hn : 1 ≤ n := by
    rw [Nat.one_le_iff_ne_zero]
    rintro rfl
    exact absurd hway.top (by rw [hfirst]; decide)
  refine ⟨hbare, hfirst, hsecond, ?_⟩
  rw [hlookUp hbare, hsome]
  refine ⟨1, hn, ?_, ?_⟩
  · rw [hsecond]
    exact .index (by decide +kernel) (by decide +kernel)
  · intro j hj
    obtain rfl : j = 0 := by omega
    rw [hfirst]
    exact ⟨by decide +kernel, by decide +kernel⟩

end SourceOverlay.Import
