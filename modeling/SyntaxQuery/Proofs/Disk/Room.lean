import Mathlib.Data.List.TakeWhile
import Mathlib.Tactic.SplitIfs
import SyntaxQuery.Proofs.Disk.Write
import SyntaxQuery.Proofs.Text.Pieces

namespace SyntaxQuery.Disk

open SyntaxQuery.Text

variable {disk : Disk} {path q : String}

theorem parts_of_append {front back : List Char} (h : path.toList = front ++ '/' :: back) :
    parts path = parts (String.ofList front) ++ parts (String.ofList back) := by
  rw [parts, parts, parts, splitPieces, splitPieces, splitPieces, h, String.toList_ofList,
    String.toList_ofList, pieces_eq_splitOn, List.splitOn_append_cons_self, List.map_append,
    pieces_eq_splitOn, pieces_eq_splitOn]

theorem parts_ne_nil (path : String) : parts path ≠ [] := by
  rw [parts, splitPieces, pieces_eq_splitOn]
  exact fun h => List.splitOn_ne_nil _ _ (List.map_eq_nil_iff.mp h)

theorem isAbsolute_iff : isAbsolute path = true ↔ path.toList.head? = some '/' := by
  rw [isAbsolute, String.startsWith_string_iff]
  change ['/'] <+: path.toList ↔ _
  cases path.toList <;> simp [eq_comm]

theorem toList_ne_nil (h : q ≠ "") : q.toList ≠ [] :=
  fun hq => h (String.toList_eq_nil_iff.mp hq)

theorem isAbsolute_of_prefix (hq : q ≠ "") (h : q.toList <+: path.toList) :
    isAbsolute q = isAbsolute path := by
  obtain ⟨back, h⟩ := h
  obtain ⟨c, cs, hc⟩ := List.exists_cons_of_ne_nil (toList_ne_nil hq)
  rw [Bool.eq_iff_iff, isAbsolute_iff, isAbsolute_iff, ← h, hc]
  rfl

theorem joinPath_of_prefix (folder : String) (hq : q ≠ "") (h : q.toList <+: path.toList) :
    ∃ front, (joinPath folder path).toList = front ++ path.toList ∧
      (joinPath folder q).toList = front ++ q.toList := by
  rw [joinPath, joinPath, isAbsolute_of_prefix hq h]
  split_ifs
  · exact ⟨[], rfl, rfl⟩
  · exact ⟨folder.toList, String.toList_append, String.toList_append⟩
  · refine ⟨folder.toList ++ ['/'], ?_, ?_⟩
    · rw [String.toList_append, String.toList_append]
      rfl
    · rw [String.toList_append, String.toList_append]
      rfl

theorem folder_of_follow {here place : Place} {front rest : List String} (hr : rest ≠ [])
    (h : disk.follow here (front ++ rest) = .ok place) :
    ∃ mid, disk.follow here front = .ok mid ∧ disk.item? mid = some .folder := by
  induction front generalizing here with
  | nil =>
    obtain ⟨part, rest, rfl⟩ := List.exists_cons_of_ne_nil hr
    rw [List.nil_append, follow] at h
    cases hf : disk.item? here with
    | none => rw [hf] at h; cases h
    | some found =>
      rw [hf] at h
      cases found with
      | file bytes => cases h
      | locked => cases h
      | folder => exact ⟨here, rfl, hf⟩
  | cons part front ih =>
    rw [List.cons_append, follow] at h
    rw [follow]
    cases hf : disk.item? here with
    | none => rw [hf] at h; cases h
    | some found =>
      rw [hf] at h
      cases found with
      | file bytes => cases h
      | locked => cases h
      | folder =>
        dsimp only at h ⊢
        split_ifs at h ⊢
        · exact ih h
        · exact ih h
        · exact ih h

theorem locate_ok {target : Place × Option Item} (h : disk.locate path = .ok target) :
    path ≠ "" ∧ ¬ path.contains '\x00' ∧ path.utf8ByteSize ≤ pathLimit ∧
      ∃ place, disk.follow [] (parts (joinPath disk.here path)) = .ok place := by
  rw [locate] at h
  split_ifs at h with he hn hl
  refine ⟨he, hn, not_lt.mp hl, ?_⟩
  cases hf : disk.follow [] (parts (joinPath disk.here path)) with
  | error cause => rw [hf] at h; cases h
  | ok place => exact ⟨place, rfl⟩

theorem isFolder_of_follow {place : Place} (he : path ≠ "") (hn : ¬ path.contains '\x00')
    (hl : path.utf8ByteSize ≤ pathLimit)
    (h : disk.follow [] (parts (joinPath disk.here path)) = .ok place)
    (hf : disk.item? place = some .folder) : disk.isFolder path = true := by
  rw [isFolder, locate, if_neg he, if_neg hn, if_neg (not_lt.mpr hl), h]
  dsimp only
  rw [hf]

theorem utf8ByteSize_le (h : q.toList <+: path.toList) :
    q.utf8ByteSize ≤ path.utf8ByteSize := by
  obtain ⟨back, h⟩ := h
  have hp : path = q ++ String.ofList back := by
    rw [← String.toList_inj, String.toList_append, String.toList_ofList, h]
  rw [hp, String.utf8ByteSize_append]
  exact Nat.le_add_right _ _

/-- The beginning of a path before a slash is a folder, if the path leads anywhere. -/
theorem isFolder_of_locate {target : Place × Option Item} (h : disk.locate path = .ok target)
    {back : List Char} (hp : path.toList = q.toList ++ '/' :: back) (hq : q ≠ "") :
    disk.isFolder q = true := by
  obtain ⟨-, hn, hl, place, hf⟩ := locate_ok h
  have hs := utf8ByteSize_le ⟨'/' :: back, hp.symm⟩
  obtain ⟨front, hj, hjq⟩ := joinPath_of_prefix disk.here hq ⟨'/' :: back, hp.symm⟩
  rw [hp, ← List.append_assoc, ← hjq] at hj
  rw [parts_of_append hj, String.ofList_toList] at hf
  obtain ⟨mid, hm, hi⟩ := folder_of_follow (parts_ne_nil _) hf
  refine isFolder_of_follow hq ?_ (hs.trans hl) hm hi
  rw [String.contains_char_eq, decide_eq_true_iff] at hn ⊢
  exact fun hc => hn (hp ▸ List.mem_append_left _ hc)

theorem present_of_isFolder (h : disk.isFolder path = true) : disk.present path = true := by
  rw [isFolder] at h
  rw [present]
  split at h
  · rename_i hl
    rw [hl]
  · cases h

theorem isFolder_of_slashes (hq : q ≠ "") (hl : q.utf8ByteSize ≤ pathLimit)
    (h : ∀ c ∈ q.toList, c = '/') :
    disk.isFolder q = true := by
  have hj : joinPath disk.here q = q := by
    have ha : isAbsolute q = true := by
      obtain ⟨c, cs, hc⟩ := List.exists_cons_of_ne_nil (toList_ne_nil hq)
      rw [isAbsolute_iff, hc, h c (hc ▸ List.mem_cons_self)]
      rfl
    rw [joinPath, ha]
    rfl
  have hp : ∀ part ∈ parts q, part = "" := by
    intro part hm
    obtain ⟨piece, hc, rfl⟩ := List.mem_map.mp hm
    obtain ⟨hn, before, behind, he, -⟩ := mem_pieces.mp hc
    have hs : ∀ c ∈ piece, c = '/' := fun c hc =>
      h c (he ▸ List.mem_append_left _ (List.mem_append_right _ hc))
    obtain rfl : piece = [] := List.eq_nil_iff_forall_not_mem.mpr fun c hc => hn (hs c hc ▸ hc)
    rfl
  -- empty parts lead nowhere, so the way does not leave the root
  have hf : ∀ way : List String, (∀ part ∈ way, part = "") → disk.follow [] way = .ok [] := by
    intro way hw
    induction way with
    | nil => rfl
    | cons part way ih =>
      obtain ⟨he, hr⟩ := List.forall_mem_cons.mp hw
      subst he
      exact ih hr
  refine isFolder_of_follow hq ?_ hl (hj.symm ▸ hf _ hp) rfl
  rw [String.contains_char_eq, decide_eq_true_iff]
  exact fun hc => absurd (h _ hc) (by decide)

theorem mem_beginnings {passed cs : List Char} (h : q ∈ beginnings passed cs) :
    q ≠ "" ∧ ∃ back, passed.reverse ++ cs = q.toList ++ '/' :: back := by
  induction cs generalizing passed with
  | nil => cases h
  | cons c cs ih =>
    have hm : q ∈ beginnings (c :: passed) cs →
        q ≠ "" ∧ ∃ back, passed.reverse ++ c :: cs = q.toList ++ '/' :: back := by
      intro hm
      obtain ⟨hq, back, hb⟩ := ih hm
      rw [List.reverse_cons, ← List.append_cons] at hb
      exact ⟨hq, back, hb⟩
    rw [beginnings] at h
    split at h
    · rename_i hc
      obtain rfl | h := List.mem_cons.mp h
      · obtain ⟨rfl, hp⟩ : c = '/' ∧ passed.head?.any (· ≠ '/') = true := by simpa using hc
        refine ⟨fun he => ?_, cs, by rw [String.toList_ofList]⟩
        obtain rfl : passed = [] := List.reverse_eq_nil_iff.mp (String.ofList_eq_empty_iff.mp he)
        cases hp
      · exact hm h
    · exact hm h

theorem mem_foldersAbove (h : q ∈ foldersAbove path) :
    q ≠ "" ∧ ∃ back, path.toList = q.toList ++ '/' :: back :=
  mem_beginnings h

theorem trimSlashes_cases (cs : List Char) :
    (∀ c ∈ trimSlashes (cs ++ ['/']), c = '/') ∧ trimSlashes (cs ++ ['/']) = cs ++ ['/'] ∨
      ∃ back, cs ++ ['/'] = trimSlashes (cs ++ ['/']) ++ '/' :: back := by
  rw [trimSlashes]
  split_ifs with ha
  · refine .inl ⟨fun c hc => ?_, rfl⟩
    exact of_decide_eq_true (List.all_eq_true.mp ha c hc)
  · right
    have hd : cs ++ ['/'] =
        ((cs ++ ['/']).reverse.dropWhile (· = '/')).reverse ++
          ((cs ++ ['/']).reverse.takeWhile (· = '/')).reverse := by
      rw [← List.reverse_append, List.takeWhile_append_dropWhile, List.reverse_reverse]
    have ht : ∀ c ∈ ((cs ++ ['/']).reverse.takeWhile (· = '/')).reverse, c = '/' := by
      intro c hc
      have hw := List.mem_takeWhile_imp (List.mem_reverse.mp hc)
      exact of_decide_eq_true hw
    cases hs : ((cs ++ ['/']).reverse.takeWhile (· = '/')).reverse with
    | nil => simp at hs
    | cons c back =>
      obtain rfl := ht c (hs ▸ List.mem_cons_self)
      rw [hs] at hd
      exact ⟨back, hd⟩

theorem folderOf_cases (h : folderOf path ≠ "") :
    (folderOf path).toList <+: path.toList ∧
      ((∀ c ∈ (folderOf path).toList, c = '/') ∨
        ∃ back, path.toList = (folderOf path).toList ++ '/' :: back) := by
  have hp : path.toList = (path.toList.reverse.dropWhile (· ≠ '/')).reverse ++
      (path.toList.reverse.takeWhile (· ≠ '/')).reverse := by
    rw [← List.reverse_append, List.takeWhile_append_dropWhile, List.reverse_reverse]
  have hh := List.head?_dropWhile_not (· ≠ '/') path.toList.reverse
  have hf : (folderOf path).toList =
      trimSlashes (path.toList.reverse.dropWhile (· ≠ '/')).reverse := by
    rw [folderOf, String.toList_ofList]
  cases hd : path.toList.reverse.dropWhile (· ≠ '/') with
  | nil =>
    rw [hd] at hf
    exact absurd (String.toList_eq_nil_iff.mp hf) h
  | cons c cs =>
    rw [hd] at hp hh hf
    obtain rfl : c = '/' := by simpa using hh
    rw [List.reverse_cons] at hp hf
    obtain ⟨hs, ht⟩ | ⟨back, hb⟩ := trimSlashes_cases cs.reverse
    · rw [← hf] at hs ht
      exact ⟨⟨_, by rw [hp, ht]⟩, .inl hs⟩
    · rw [← hf] at hb
      rw [hb, List.append_assoc, List.cons_append] at hp
      exact ⟨⟨_, hp.symm⟩, .inr ⟨_, hp⟩⟩

theorem makeFolders_of_isFolder (h : disk.isFolder path = true)
    (ha : ∀ q ∈ foldersAbove path, disk.present q = true) :
    disk.makeFolders path = (.ok (), disk) := by
  have hm : ((foldersAbove path).reverse.takeWhile fun q => !disk.present q).reverse = [] := by
    rw [List.reverse_eq_nil_iff]
    cases hr : (foldersAbove path).reverse with
    | nil => rfl
    | cons q rest =>
      have hq : q ∈ foldersAbove path := List.mem_reverse.mp (hr ▸ List.mem_cons_self)
      exact List.takeWhile_cons_of_neg (by simp [ha q hq])
  -- the folder itself is tried even so; that it is taken is no error where a folder took it
  have ht : disk.makeFolder path = .error ⟨.taken, path⟩ := by
    rw [isFolder] at h
    rw [makeFolder]
    split at h
    · rename_i hl
      rw [hl]
      rfl
    · cases h
  rw [makeFolders, hm, makeEach]
  dsimp only
  rw [ht]
  exact congrArg (·, disk) (if_pos h)

/-- Where a path leads anywhere, its folder is there with all that are above it. -/
theorem makeRoom_of_locate {target : Place × Option Item} (h : disk.locate path = .ok target) :
    disk.makeRoom path = (.ok (), disk) := by
  rw [makeRoom]
  split_ifs with he
  · rfl
  · obtain ⟨⟨rest, hp⟩, hc⟩ := folderOf_cases he
    obtain ⟨-, -, hl, -⟩ := locate_ok h
    refine makeFolders_of_isFolder ?_ fun q hq => present_of_isFolder ?_
    · obtain hs | ⟨back, hb⟩ := hc
      · exact isFolder_of_slashes he ((utf8ByteSize_le ⟨rest, hp⟩).trans hl) hs
      · exact isFolder_of_locate h hb he
    · obtain ⟨hne, back, hb⟩ := mem_foldersAbove hq
      rw [hb, List.append_assoc] at hp
      exact isFolder_of_locate h hp.symm hne

end SyntaxQuery.Disk
