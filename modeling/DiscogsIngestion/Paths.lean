import Mathlib.Data.List.Infix
import Mathlib.Tactic.SplitIfs
import DiscogsIngestion.Lib.Words

/-!
# Paths

Paths as strings, with `/` between their components.

* `Path.IsComponent` : the name of a file in a directory;
* `Path.fileName`, `Path.join` : the last component of a path, and a path below a directory;
* `Path.IsChild` : a path directly below a directory; `join_inj` : different names have different paths.
-/

namespace DiscogsIngestion.Path

/-- The last component of a path, without `.` and empty ones. -/
def fileName (path : String) : Option String :=
  let components := ((path.toList.splitOn '/').map String.ofList).filter fun part => part ≠ "" ∧ part ≠ "."
  components.getLast?.filter (· ≠ "..")

/-- A path below the directory. An absolute path stands for itself. -/
def join (directory path : String) : String :=
  if path.toList.head? = some '/' then path
  else if directory = "" ∨ directory.toList.getLast? = some '/' then directory ++ path
  else directory ++ "/" ++ path

/-- The name of a file in a directory: one component, which does not lead elsewhere. -/
structure IsComponent (name : String) : Prop where
  nonempty : name ≠ ""
  current : name ≠ "."
  parent : name ≠ ".."
  separator : '/' ∉ name.toList

def IsChild (directory path : String) : Prop := ∃ name, IsComponent name ∧ path = join directory name

variable {directory path name : String}

theorem isComponent_of_fileName (h : fileName path = some name) : IsComponent name := by
  unfold fileName at h
  obtain ⟨hlast, hparent⟩ := Option.filter_eq_some_iff.1 h
  obtain ⟨hmem, hkept⟩ := List.mem_filter.1 (List.mem_of_getLast? hlast)
  obtain ⟨part, hpart, rfl⟩ := List.mem_map.1 hmem
  obtain ⟨hnonempty, hcurrent⟩ := of_decide_eq_true hkept
  refine ⟨hnonempty, hcurrent, of_decide_eq_true hparent, fun hslash => ?_⟩
  rw [String.toList_ofList] at hslash
  rw [List.splitOn_eq_splitOnP] at hpart
  have hfree := Words.not_separator_of_mem_splitOnP _ part hpart '/' hslash
  exact absurd hfree (by decide)

theorem join_of_isComponent (directory : String) (h : IsComponent name) : join directory name =
    if directory = "" ∨ directory.toList.getLast? = some '/' then directory ++ name else directory ++ "/" ++ name := by
  unfold join
  rw [if_neg]
  intro hhead
  exact h.separator (List.mem_of_mem_head? hhead)

theorem join_inj {name' : String} (h : IsComponent name) (h' : IsComponent name')
    (heq : join directory name = join directory name') : name = name' := by
  rw [join_of_isComponent directory h, join_of_isComponent directory h'] at heq
  split_ifs at heq
  · exact (String.append_right_inj directory).1 heq
  · exact (String.append_right_inj (directory ++ "/")).1 heq

theorem splitOn_of_isComponent (h : IsComponent name) : name.toList.splitOn '/' = [name.toList] :=
  Words.splitOn_of_not_mem h.separator

theorem fileName_of_parts (parts : List (List Char)) (h : IsComponent name)
    (hparts : path.toList.splitOn '/' = parts ++ [name.toList]) : fileName path = some name := by
  unfold fileName
  dsimp only
  rw [hparts, List.map_append, List.filter_append, List.map_singleton, String.ofList_toList]
  have hkept : [name].filter (fun part => part ≠ "" ∧ part ≠ ".") = [name] :=
    List.filter_cons_of_pos (decide_eq_true ⟨h.nonempty, h.current⟩)
  rw [hkept, List.getLast?_concat]
  exact if_pos (decide_eq_true h.parent)

theorem fileName_self (h : IsComponent name) : fileName name = some name :=
  fileName_of_parts [] h (splitOn_of_isComponent h)

theorem fileName_below (h : IsComponent name) (directory : String) :
    fileName (directory ++ "/" ++ name) = some name := by
  refine fileName_of_parts (directory.toList.splitOn '/') h ?_
  rw [String.toList_append, String.toList_append, List.append_assoc]
  show (directory.toList ++ '/' :: name.toList).splitOn '/' = _
  rw [List.splitOn_eq_splitOnP, List.splitOnP_append_cons _ _ (by decide), ← List.splitOn_eq_splitOnP,
    ← List.splitOn_eq_splitOnP, splitOn_of_isComponent h]

theorem isComponent_of_long (hlong : 2 < name.toList.length) (hslash : '/' ∉ name.toList) : IsComponent name := by
  refine ⟨?_, ?_, ?_, hslash⟩
  all_goals
    rintro rfl
    exact absurd hlong (by decide)

/-- A path that ends in a part of a name, other than dots, ends in a name. -/
theorem exists_fileName {ending : String} (hlong : 2 < ending.toList.length) (hslash : '/' ∉ ending.toList)
    (h : ending.toList <:+ path.toList) : ∃ name, fileName path = some name := by
  obtain ⟨front, hfront⟩ := h
  by_cases hmem : '/' ∈ front
  · -- the last separator
    obtain ⟨start, directory, hsplit, hstart⟩ := List.eq_append_cons_of_mem (List.mem_reverse.2 hmem)
    have hpath : path = String.ofList directory.reverse ++ "/" ++ (String.ofList start.reverse ++ ending) := by
      apply String.toList_injective
      rw [← hfront, ← List.reverse_reverse front, hsplit]
      simp
    rw [hpath]
    refine ⟨_, fileName_below (isComponent_of_long ?_ ?_) _⟩
    · rw [String.toList_append, List.length_append]
      omega
    · rw [String.toList_append, String.toList_ofList, List.mem_append, List.mem_reverse]
      exact not_or.2 ⟨hstart, hslash⟩
  · refine ⟨path, fileName_self (isComponent_of_long ?_ ?_)⟩
    · rw [← hfront, List.length_append]
      omega
    · rw [← hfront, List.mem_append]
      exact not_or.2 ⟨hmem, hslash⟩

end DiscogsIngestion.Path
