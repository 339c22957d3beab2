import Kei.Download.Paths
import Kei.Lib.Split
import Mathlib.Data.List.Induction

/-!
# Kei.Download.Names

Paths put together and taken apart: the components of a path are those of its
directory and its name, and they build the path again.
-/

namespace Kei.Download

open Str

/-- A component that names something in a directory. -/
structure Plain (name : String) : Prop where
  noSlash : '/' ∉ name.toList
  nonempty : name ≠ ""
  notDot : name ≠ "."

/-- `Path::join` with the parent of a path. -/
def joinDir (dir : List String) (name : String) : Path := join (dir.foldl join "") name

variable {path dir name : String} {names : List String}

/-! ## components -/

/-- The names among the pieces. -/
def namesIn (pieces : List String) : List String :=
  pieces.filter (fun piece => piece ≠ "" && piece ≠ ".")

theorem namesIn_append (a b : List String) : namesIn (a ++ b) = namesIn a ++ namesIn b :=
  List.filter_append ..

theorem plain_of_mem_namesIn (h : name ∈ namesIn (split path '/')) : Plain name := by
  obtain ⟨hmem, hname⟩ := List.mem_filter.mp h
  simp only [Bool.and_eq_true, decide_eq_true_eq] at hname
  exact ⟨not_mem_of_mem_split hmem, hname.1, hname.2⟩

theorem namesIn_plain (h : Plain name) : namesIn [name] = [name] := by
  simp [namesIn, h.nonempty, h.notDot]

/-- What stands before the names. -/
def lead (path : Path) : List String :=
  if startsWith path '/' then ["/"]
  else if (split path '/').head? = some "." then ["."]
  else []

theorem components_eq (path : Path) :
    components path = lead path ++ namesIn (split path '/') := by
  unfold components lead namesIn
  dsimp only
  split
  · rfl
  · split <;> rfl

theorem lead_cases (path : Path) : lead path = [] ∨ lead path = ["/"] ∨ lead path = ["."] := by
  unfold lead
  split
  · exact .inr (.inl rfl)
  · split
    · exact .inr (.inr rfl)
    · exact .inl rfl

theorem components_of_plain (h : Plain name) : components name = [name] := by
  have hlead : lead name = [] := by
    unfold lead startsWith
    rw [split_of_not_mem h.noSlash]
    have hstart : ¬ (name.toList.head? == some '/') = true := by
      rw [beq_iff_eq]
      exact fun hhead => h.noSlash (List.mem_of_mem_head? hhead)
    simp [hstart, h.notDot]
  rw [components_eq, hlead, split_of_not_mem h.noSlash, namesIn_plain h, List.nil_append]

theorem head?_append {α : Type} {l : List α} (hl : l ≠ []) (l' : List α) :
    (l ++ l').head? = l.head? := by
  cases l with
  | nil => contradiction
  | cons a l => rfl

theorem lead_append (base t : String) : lead (base ++ "/" ++ t) = lead (base ++ "/") := by
  have hsplit (t : String) : (split (base ++ "/" ++ t) '/').head? = (split base '/').head? := by
    rw [show base ++ "/" ++ t = base ++ String.singleton '/' ++ t from rfl, split_append,
      head?_append (split_ne_nil base '/')]
  have hstart (t : String) : startsWith (base ++ "/" ++ t) '/' = startsWith (base ++ "/") '/' := by
    have hne : (base ++ "/").toList ≠ [] := by simp
    rw [startsWith, String.toList_append, head?_append hne, startsWith]
  have hempty := hsplit ""
  rw [String.append_empty] at hempty
  unfold lead
  rw [hsplit t, hempty, hstart t]

theorem namesIn_split_append (base t : String) :
    namesIn (split (base ++ "/" ++ t) '/') =
      namesIn (split base '/') ++ namesIn (split t '/') := by
  rw [show base ++ "/" ++ t = base ++ String.singleton '/' ++ t from rfl, split_append,
    namesIn_append]

/-- A slash at the end changes nothing, and a name after it is one more component. -/
theorem components_append (base : String) (h : Plain name) :
    components (base ++ "/" ++ name) = components (base ++ "/") ++ [name] := by
  have hnames : namesIn (split (base ++ "/") '/') = namesIn (split base '/') := by
    have happend := namesIn_split_append base ""
    rw [String.append_empty] at happend
    rw [happend]
    simp [split, splitList, namesIn]
  rw [components_eq, components_eq, lead_append, namesIn_split_append, hnames,
    split_of_not_mem h.noSlash, namesIn_plain h, List.append_assoc]

theorem components_slash {base : String} (hbase : base ≠ "") :
    components (base ++ "/") = components base := by
  have hnames := namesIn_split_append base ""
  rw [String.append_empty] at hnames
  have hsplit : split (base ++ "/") '/' = split base '/' ++ [""] := by
    have happend := @split_append '/' base ""
    rw [String.append_empty] at happend
    rw [show base ++ "/" = base ++ String.singleton '/' from rfl, happend]
    simp [split, splitList]
  have hlead : lead (base ++ "/") = lead base := by
    have hne : base.toList ≠ [] := by simpa using hbase
    unfold lead startsWith
    rw [hsplit, head?_append (split_ne_nil base '/'), String.toList_append, head?_append hne]
  rw [components_eq, components_eq, hlead, hnames]
  simp [split, splitList, namesIn]

theorem exists_slash {path : Path} (h : path.toList.getLast? = some '/') :
    ∃ base, path = base ++ "/" := by
  obtain ⟨front, hfront⟩ := List.getLast?_eq_some_iff.mp h
  exact ⟨String.ofList front, by rw [← String.toList_inj, hfront]; simp⟩

/-- **The components of a path in a directory.** -/
theorem components_join (h : Plain name) :
    components (join path name) = components path ++ [name] := by
  have hstart : startsWith name '/' = false := by
    rw [startsWith, beq_eq_false_iff_ne]
    exact fun hhead => h.noSlash (List.mem_of_mem_head? hhead)
  unfold join
  rw [hstart]
  simp only [Bool.false_eq_true, if_false]
  by_cases hempty : path = ""
  · simp [hempty, components_of_plain h, show components "" = [] from rfl]
  · by_cases hlast : path.toList.getLast? = some '/'
    · obtain ⟨base, hpath⟩ := exists_slash hlast
      simp only [hempty, hlast, decide_false, decide_true, Bool.or_true, if_true]
      rw [hpath, components_append _ h]
    · simp only [hempty, hlast, decide_false, Bool.or_self, Bool.false_eq_true, if_false]
      rw [components_append _ h, components_slash hempty]

/-! ## directory and name -/

theorem Plain.not_root (h : Plain name) : name ≠ "/" := by
  rintro rfl
  exact h.noSlash (by decide)

theorem plain_of_fileName (h : fileName path = some name) : Plain name := by
  obtain ⟨hlast, hname⟩ := Option.filter_eq_some_iff.mp h
  simp only [Bool.and_eq_true, decide_eq_true_eq] at hname
  have hmem := List.mem_of_mem_getLast? hlast
  rw [components_eq, List.mem_append] at hmem
  rcases hmem with hlead | hmem
  · rcases lead_cases path with hl | hl | hl <;> rw [hl] at hlead
    · simp at hlead
    · exact absurd (List.mem_singleton.mp hlead) hname.1.1
    · exact absurd (List.mem_singleton.mp hlead) hname.1.2
  · exact plain_of_mem_namesIn hmem

theorem components_of_parent (hdir : parent path = some names) (hname : fileName path = some name) :
    components path = names ++ [name] := by
  obtain ⟨hlast, -⟩ := Option.filter_eq_some_iff.mp hname
  obtain ⟨front, hfront⟩ := List.getLast?_eq_some_iff.mp hlast
  unfold parent at hdir
  split at hdir
  · cases hdir
  · cases hdir
  · cases hdir
    rw [hfront, List.dropLast_concat]

theorem parent_of_components (h : Plain name) (hcomponents : components path = names ++ [name]) :
    parent path = some names := by
  unfold parent
  split
  · next hnil => simp [hnil] at hcomponents
  · next hroot =>
      rw [hroot] at hcomponents
      have hlast := congrArg List.getLast? hcomponents
      simp only [List.getLast?_singleton, List.getLast?_append, List.getLast?_singleton,
        Option.some_or, Option.some.injEq] at hlast
      exact absurd hlast.symm h.not_root
  · rw [hcomponents, List.dropLast_concat]

theorem fileName_of_components (h : Plain name) (hup : name ≠ "..")
    (hcomponents : components path = names ++ [name]) : fileName path = some name := by
  simp [fileName, hcomponents, Option.filter, h.not_root, h.notDot, hup]

theorem components_foldl_join (path : Path) {l : List String} (h : l <+: components path) :
    components (l.foldl join "") = l := by
  induction l using List.reverseRecOn with
  | nil => rfl
  | append_singleton front last ih =>
      have hfront := ih ((List.prefix_append front [last]).trans h)
      rw [List.foldl_append, List.foldl_cons, List.foldl_nil]
      by_cases hplain : Plain last
      · rw [components_join hplain, hfront]
      · -- only what stands before the names is no name itself
        obtain ⟨rest, hrest⟩ := h
        rw [components_eq] at hrest
        have hname : last ∉ namesIn (split path '/') := fun hmem =>
          hplain (plain_of_mem_namesIn hmem)
        have hfirst (first : String) (hlead : lead path = [first]) : front = [] ∧ last = first := by
          rw [hlead] at hrest
          cases front with
          | nil => exact ⟨rfl, (List.cons.inj hrest).1⟩
          | cons _ front =>
              refine absurd ?_ hname
              have htail : front ++ [last] ++ rest = namesIn (split path '/') :=
                (List.cons.inj hrest).2
              rw [← htail]
              simp
        rcases lead_cases path with hlead | hlead | hlead
        · rw [hlead, List.nil_append] at hrest
          refine absurd ?_ hname
          rw [← hrest]
          simp
        · obtain ⟨rfl, rfl⟩ := hfirst _ hlead
          rfl
        · obtain ⟨rfl, rfl⟩ := hfirst _ hlead
          rfl

theorem components_joinDir (hdir : parent path = some names) (h : Plain name) :
    components (joinDir names name) = names ++ [name] := by
  have hprefix : names <+: components path := by
    unfold parent at hdir
    split at hdir
    · cases hdir
    · cases hdir
    · cases hdir
      exact List.dropLast_prefix _
  rw [joinDir, components_join h, components_foldl_join path hprefix]

end Kei.Download
