import TyprCompanion.Js.Path

/-!
# Resolving paths

* `HostPath` — the functions of `node:path` that combine paths, on a host.
* `keepSegment`, `normalizeSegments` — empty segments and dots are dropped, and `..` drops a segment.
* `HostPath.posix` — `posix.join`, `posix.resolve` of an absolute root, and `posix.dirname`.
* **`resolvePosix_below`** — a relative path without `..` is resolved to its root or below it.
-/

namespace Typr

/-- The functions of `node:path` that combine paths. -/
structure HostPath where
  platform : Platform
  join : List JSString → JSString
  resolve : JSString → JSString → JSString
  dirname : JSString → JSString

/-! ## The functions on POSIX -/

/-- The segments kept so far, the last one first, when another one follows.  Only a relative path keeps
`..` at its beginning. -/
def keepSegment (absolute : Bool) (kept : List JSString) (segment : JSString) : List JSString :=
  if segment = [] ∨ segment = js "." then kept
  else if segment = js ".." then
    match kept with
    | [] => if absolute then [] else [segment]
    | last :: before => if last = js ".." then segment :: kept else before
  else segment :: kept

/-- The segments of a path without dots. -/
def normalizeSegments (absolute : Bool) (segments : List JSString) : List JSString :=
  (segments.foldl (keepSegment absolute) []).reverse

/-- `posix.resolve(root, path)`, for an absolute root -/
def resolvePosix (root path : JSString) : JSString :=
  let segments := if path.isAbsolutePosix then JSString.split (unit '/') path
    else JSString.split (unit '/') root ++ JSString.split (unit '/') path
  unit '/' :: JSString.join (unit '/') (normalizeSegments true segments)

/-- `posix.normalize(path)` -/
def normalizePosix (path : JSString) : JSString :=
  if path = [] then js "."
  else
    let segments := normalizeSegments path.isAbsolutePosix (JSString.split (unit '/') path)
    let body := JSString.join (unit '/') segments
    let trailing := path.endsWith [unit '/']
    if path.isAbsolutePosix then
      unit '/' :: (if trailing ∧ segments ≠ [] then body ++ [unit '/'] else body)
    else if segments = [] then (if trailing then js "./" else js ".")
    else if trailing then body ++ [unit '/'] else body

/-- `posix.join(...paths)` -/
def joinPosix (paths : List JSString) : JSString :=
  match paths.filter (· ≠ []) with
  | [] => js "."
  | named => normalizePosix (JSString.join (unit '/') named)

/-- `posix.dirname(path)` -/
def dirnamePosix : JSString → JSString
  | [] => js "."
  | first :: rest =>
      match (rest.reverse.dropWhile (· == unit '/')).dropWhile (· != unit '/') with
      | [] => if first = unit '/' then js "/" else js "."
      | _ :: before => if first = unit '/' ∧ before = [] then js "//" else first :: before.reverse

/-- How many segments two paths have in common at their beginning. -/
def commonLength : List JSString → List JSString → Nat
  | segment :: source, other :: target => if segment = other then commonLength source target + 1 else 0
  | _, _ => 0

/-- `posix.relative(from, to)`, for absolute paths -/
def relativePosix (source target : JSString) : JSString :=
  let source := normalizeSegments true (JSString.split (unit '/') source)
  let target := normalizeSegments true (JSString.split (unit '/') target)
  let common := commonLength source target
  JSString.join (unit '/') (List.replicate (source.length - common) (js "..") ++ target.drop common)

/-- `node:path` on POSIX -/
def HostPath.posix : HostPath := ⟨.posix, joinPosix, resolvePosix, dirnamePosix⟩

/-! ## Resolving -/

/-- A segment a normalized absolute path may have. -/
structure PlainSegment (segment : JSString) : Prop where
  nonempty : segment ≠ []
  not_dot : segment ≠ js "."
  not_dots : segment ≠ js ".."
  unsplit : unit '/' ∉ segment

section Segments

variable {absolute : Bool} {kept segments more : List JSString}

theorem keepSegment_plain (kept : List JSString) {segment : JSString} (h : PlainSegment segment) :
    keepSegment absolute kept segment = segment :: kept := by
  unfold keepSegment
  rw [if_neg (not_or.mpr ⟨h.nonempty, h.not_dot⟩), if_neg h.not_dots]

theorem keepSegment_dot (kept : List JSString) {segment : JSString}
    (h : segment = [] ∨ segment = js ".") : keepSegment absolute kept segment = kept := if_pos h

/-- Plain segments stay. -/
theorem foldl_keep_plain (kept : List JSString) (h : ∀ segment ∈ segments, PlainSegment segment) :
    segments.foldl (keepSegment absolute) kept = segments.reverse ++ kept := by
  induction segments generalizing kept with
  | nil => rfl
  | cons segment rest ih =>
      obtain ⟨hsegment, hrest⟩ := List.forall_mem_cons.mp h
      rw [List.foldl_cons, keepSegment_plain kept hsegment, ih _ hrest, List.reverse_cons,
        List.append_assoc]
      rfl

/-- Without `..` no segment before is dropped. -/
theorem foldl_keep_without_dots (kept : List JSString) (h : js ".." ∉ segments) :
    segments.foldl (keepSegment absolute) kept
      = (segments.filter fun segment => segment ≠ [] ∧ segment ≠ js ".").reverse ++ kept := by
  induction segments generalizing kept with
  | nil => rfl
  | cons segment rest ih =>
      obtain ⟨hsegment, hrest⟩ := not_or.mp (mt List.mem_cons.mpr h)
      rw [List.foldl_cons]
      by_cases hdot : segment = [] ∨ segment = js "."
      · rw [keepSegment_dot kept hdot, ih kept hrest, List.filter_cons_of_neg]
        simpa [or_iff_not_imp_left] using hdot
      · have hkeep : keepSegment absolute kept segment = segment :: kept := by
          unfold keepSegment
          rw [if_neg hdot, if_neg (Ne.symm hsegment)]
        rw [hkeep, ih _ hrest, List.filter_cons_of_pos, List.reverse_cons, List.append_assoc]
        · rfl
        · simpa [not_or] using hdot

/-- What is kept of an absolute path is plain. -/
theorem plain_keep (hkept : ∀ segment ∈ kept, PlainSegment segment)
    (h : ∀ segment ∈ segments, unit '/' ∉ segment) :
    ∀ segment ∈ segments.foldl (keepSegment true) kept, PlainSegment segment := by
  induction segments generalizing kept with
  | nil => exact hkept
  | cons segment rest ih =>
      obtain ⟨hsegment, hrest⟩ := List.forall_mem_cons.mp h
      refine ih ?_ hrest
      unfold keepSegment
      split
      next => exact hkept
      next hdot =>
        split
        next =>
          cases kept with
          | nil => exact List.forall_mem_nil _
          | cons last before =>
              obtain ⟨hlast, hbefore⟩ := List.forall_mem_cons.mp hkept
              dsimp only
              rw [if_neg hlast.not_dots]
              exact hbefore
        next hdots =>
          rw [not_or] at hdot
          exact List.forall_mem_cons.mpr ⟨⟨hdot.1, hdot.2, hdots, hsegment⟩, hkept⟩

theorem normalizeSegments_append (segments more : List JSString) :
    normalizeSegments absolute (segments ++ more)
      = (more.foldl (keepSegment absolute) (normalizeSegments absolute segments).reverse).reverse := by
  rw [normalizeSegments, normalizeSegments, List.foldl_append, List.reverse_reverse]

end Segments

/-- A root that is resolved, and not the root of the file system. -/
structure ResolvedRoot (root : JSString) : Prop where
  resolved : resolvePosix root [] = root
  proper : root ≠ js "/"

/-- The segments of a resolved root. -/
theorem ResolvedRoot.segments {root : JSString} (h : resolvePosix root [] = root) :
    ∃ segments, (∀ segment ∈ segments, PlainSegment segment) ∧
      root = unit '/' :: JSString.join (unit '/') segments ∧
      normalizeSegments true (JSString.split (unit '/') root) = segments := by
  have hsplit : ∀ segment ∈ JSString.split (unit '/') root, unit '/' ∉ segment :=
    fun segment => JSString.not_mem_of_mem_split
  refine ⟨normalizeSegments true (JSString.split (unit '/') root),
    fun segment hsegment => plain_keep (List.forall_mem_nil _) hsplit segment
      (List.mem_reverse.mp hsegment), ?_, rfl⟩
  have hnormal : normalizeSegments true (JSString.split (unit '/') root ++ [[]])
      = normalizeSegments true (JSString.split (unit '/') root) := by
    rw [normalizeSegments_append, List.foldl_cons, keepSegment_dot _ (.inl rfl), List.foldl_nil,
      List.reverse_reverse]
  calc root = resolvePosix root [] := h.symm
    _ = unit '/' :: JSString.join (unit '/')
          (normalizeSegments true (JSString.split (unit '/') root ++ [[]])) := rfl
    _ = _ := by rw [hnormal]

/-- **A relative path without `..`** is resolved to its root or below it. -/
theorem resolvePosix_below {root path : JSString} (hroot : ResolvedRoot root)
    (hrelative : path.isAbsolutePosix = false)
    (hdots : (JSString.split (unit '/') path).contains (js "..") = false) :
    resolvePosix root path = root ∨ (resolvePosix root path).startsWith (root ++ [unit '/']) = true := by
  obtain ⟨segments, hplain, heq, hnormal⟩ := ResolvedRoot.segments hroot.resolved
  have hne : segments ≠ [] := by
    rintro rfl
    exact hroot.proper heq
  have hpath : js ".." ∉ JSString.split (unit '/') path := by
    rw [← List.contains_iff_mem, hdots]
    exact Bool.false_ne_true
  have hresolve : resolvePosix root path = unit '/' :: JSString.join (unit '/') (segments ++
      (JSString.split (unit '/') path).filter fun segment => segment ≠ [] ∧ segment ≠ js ".") := by
    unfold resolvePosix
    dsimp only
    rw [hrelative, if_neg Bool.false_ne_true, normalizeSegments_append, hnormal,
      foldl_keep_without_dots _ hpath, List.reverse_append, List.reverse_reverse, List.reverse_reverse]
  rw [hresolve]
  generalize (JSString.split (unit '/') path).filter _ = below
  cases below with
  | nil => exact .inl (by rw [List.append_nil, heq])
  | cons first rest =>
      refine .inr ?_
      rw [JSString.join_append hne (List.cons_ne_nil _ _), JSString.startsWith, List.isPrefixOf_iff_prefix]
      exact ⟨JSString.join (unit '/') (first :: rest), by rw [heq]; simp⟩

/-- Plain names under a resolved path make a resolved root. -/
theorem joinPosix_resolved {root : JSString} (hroot : resolvePosix root [] = root)
    {names : List JSString} (hne : names ≠ []) (hnames : ∀ name ∈ names, PlainSegment name) :
    ResolvedRoot (joinPosix (root :: names)) := by
  obtain ⟨segments, hplain, heq, hnormal⟩ := ResolvedRoot.segments hroot
  have hall : ∀ segment ∈ segments ++ names, PlainSegment segment :=
    List.forall_mem_append.mpr ⟨hplain, hnames⟩
  have hnonempty : segments ++ names ≠ [] := by simp [hne]
  have hjoined : joinPosix (root :: names)
      = unit '/' :: JSString.join (unit '/') (segments ++ names) := by
    have hfilter : (root :: names).filter (· ≠ []) = root :: names := by
      rw [List.filter_eq_self]
      intro name hname
      rcases List.mem_cons.mp hname with rfl | hname
      · rw [heq]
        simp
      · simpa using (hnames name hname).nonempty
    have hpath : JSString.join (unit '/') (root :: names)
        = root ++ unit '/' :: JSString.join (unit '/') names := by
      rw [← List.singleton_append, JSString.join_append (List.cons_ne_nil _ _) hne]
      rfl
    have habsolute : (root ++ unit '/' :: JSString.join (unit '/') names).isAbsolutePosix = true := by
      rw [heq]
      rfl
    have hsplit : normalizeSegments true
        (JSString.split (unit '/') (root ++ unit '/' :: JSString.join (unit '/') names))
        = segments ++ names := by
      rw [JSString.split_append, JSString.split_join hne fun name hname => (hnames name hname).unsplit,
        normalizeSegments_append, hnormal, foldl_keep_plain _ hnames, List.reverse_append,
        List.reverse_reverse, List.reverse_reverse]
    have htrailing : (root ++ unit '/' :: JSString.join (unit '/') names).endsWith [unit '/'] = false := by
      obtain ⟨front, last, rfl⟩ : ∃ front last, names = front ++ [last] :=
        ⟨_, _, (List.dropLast_append_getLast hne).symm⟩
      have hlast := hnames last (by simp)
      obtain ⟨body, final, rfl⟩ : ∃ body final, last = body ++ [final] :=
        ⟨_, _, (List.dropLast_append_getLast hlast.nonempty).symm⟩
      have hfinal : final ≠ unit '/' := fun h => hlast.unsplit (by simp [h])
      obtain ⟨head, hhead⟩ : ∃ head, JSString.join (unit '/') (front ++ [body ++ [final]])
          = head ++ [final] := by
        by_cases hfront : front = []
        · exact ⟨body, by rw [hfront]; rfl⟩
        · rw [JSString.join_append hfront (List.cons_ne_nil _ _)]
          exact ⟨JSString.join (unit '/') front ++ unit '/' :: body, by simp [JSString.join]⟩
      rw [hhead, Bool.eq_false_iff]
      intro h
      rw [JSString.endsWith, List.isSuffixOf_iff_suffix, ← List.cons_append, ← List.append_assoc,
        List.suffix_concat_iff] at h
      rcases h with h | ⟨rest, h, -⟩
      · cases h
      · rw [← List.nil_append [unit '/']] at h
        exact hfinal (by simpa using (List.append_inj_right' h rfl).symm)
    rw [joinPosix, hfilter]
    show normalizePosix (JSString.join (unit '/') (root :: names)) = _
    rw [hpath, normalizePosix, if_neg (by simp), habsolute, hsplit, htrailing]
    simp
  refine ⟨?_, fun h => ?_⟩
  · rw [hjoined]
    have hsplit : JSString.split (unit '/') (unit '/' :: JSString.join (unit '/') (segments ++ names))
        = [] :: (segments ++ names) := by
      rw [← JSString.split_join hnonempty fun segment hsegment => (hall segment hsegment).unsplit,
        JSString.join_split]
      simp [JSString.split]
    have hnormal : normalizeSegments true ([] :: (segments ++ names) ++ [[]]) = segments ++ names := by
      rw [normalizeSegments, List.cons_append, List.foldl_cons, keepSegment_dot _ (.inl rfl),
        List.foldl_append, foldl_keep_plain _ hall, List.append_nil, List.foldl_cons,
        keepSegment_dot _ (.inl rfl), List.foldl_nil, List.reverse_reverse]
    unfold resolvePosix
    dsimp only
    rw [if_neg (by decide), hsplit]
    exact congrArg (fun segments => unit '/' :: JSString.join (unit '/') segments) hnormal
  · rw [hjoined] at h
    have hempty : JSString.join (unit '/') (segments ++ names) = [] := (List.cons.inj h).2
    have := JSString.split_join hnonempty fun segment hsegment => (hall segment hsegment).unsplit
    rw [hempty] at this
    have hmem : ([] : JSString) ∈ segments ++ names := by rw [← this]; exact List.mem_singleton_self _
    exact (hall [] hmem).nonempty rfl

/-! ## Paths and their segments -/

/-- The absolute path with these segments. -/
def absolutePath (segments : List JSString) : JSString := unit '/' :: JSString.join (unit '/') segments

section AbsolutePaths

variable {segments : List JSString}

/-- What is left of the pieces of an absolute path without the empty ones. -/
theorem filter_split_absolutePath (h : ∀ segment ∈ segments, PlainSegment segment) :
    (JSString.split (unit '/') (absolutePath segments)).filter (· ≠ []) = segments := by
  have hsplit : JSString.split (unit '/') (absolutePath segments)
      = [] :: JSString.split (unit '/') (JSString.join (unit '/') segments) := by
    simp [absolutePath, JSString.split]
  rw [hsplit, List.filter_cons_of_neg (by simp)]
  by_cases hnil : segments = []
  · rw [hnil]
    rfl
  · rw [JSString.split_join hnil fun segment hsegment => (h segment hsegment).unsplit,
      List.filter_eq_self]
    intro segment hsegment
    simpa using (h segment hsegment).nonempty

theorem normalizeSegments_absolutePath (h : ∀ segment ∈ segments, PlainSegment segment) :
    normalizeSegments true (JSString.split (unit '/') (absolutePath segments)) = segments := by
  have hsplit : JSString.split (unit '/') (absolutePath segments)
      = [] :: JSString.split (unit '/') (JSString.join (unit '/') segments) := by
    simp [absolutePath, JSString.split]
  rw [hsplit, normalizeSegments, List.foldl_cons, keepSegment_dot _ (.inl rfl)]
  by_cases hnil : segments = []
  · rw [hnil]
    rfl
  · rw [JSString.split_join hnil fun segment hsegment => (h segment hsegment).unsplit,
      foldl_keep_plain _ h, List.append_nil, List.reverse_reverse]

/-- A resolved path has plain segments. -/
theorem resolvePosix_absolute (root path : JSString) :
    ∃ segments, (∀ segment ∈ segments, PlainSegment segment) ∧
      resolvePosix root path = absolutePath segments := by
  refine ⟨_, fun segment hsegment => ?_, rfl⟩
  refine plain_keep (List.forall_mem_nil _) ?_ segment (List.mem_reverse.mp hsegment)
  intro segment hsegment
  split at hsegment
  next => exact JSString.not_mem_of_mem_split hsegment
  next =>
    rcases List.mem_append.mp hsegment with hsegment | hsegment
    · exact JSString.not_mem_of_mem_split hsegment
    · exact JSString.not_mem_of_mem_split hsegment

/-- `dirname` drops the last segment. -/
theorem dirnamePosix_absolutePath (h : ∀ segment ∈ segments, PlainSegment segment) :
    dirnamePosix (absolutePath segments) = absolutePath segments.dropLast := by
  rcases List.eq_nil_or_concat' segments with rfl | ⟨front, last, rfl⟩
  · rfl
  · have hlast := h last (by simp)
    have hreverse : last.reverse ≠ [] := by simpa using hlast.nonempty
    have hslash : ∀ u ∈ last.reverse, u ≠ unit '/' := fun u hu heq =>
      hlast.unsplit (heq ▸ List.mem_reverse.mp hu)
    obtain ⟨final, body, hbody⟩ := List.exists_cons_of_ne_nil hreverse
    have hkeep : ∀ before : JSString, (last.reverse ++ before).dropWhile (· == unit '/')
        = last.reverse ++ before := by
      intro before
      rw [hbody, List.cons_append, List.dropWhile_cons_of_neg]
      simpa using hslash final (by simp [hbody])
    have hdrop : ∀ before : JSString, (last.reverse ++ before).dropWhile (· != unit '/')
        = before.dropWhile (· != unit '/') := by
      intro before
      refine List.dropWhile_append_of_pos fun u hu => ?_
      simpa using hslash u hu
    have hrest : ∀ before : JSString,
        ((before ++ last).reverse.dropWhile (· == unit '/')).dropWhile (· != unit '/')
          = before.reverse.dropWhile (· != unit '/') := by
      intro before
      rw [List.reverse_append, hkeep, hdrop]
    rw [List.dropLast_concat]
    by_cases hfront : front = []
    · subst hfront
      have hnothing := hrest []
      rw [List.nil_append] at hnothing
      show dirnamePosix (unit '/' :: last) = _
      rw [dirnamePosix, hnothing]
      rfl
    · have hjoin : absolutePath (front ++ [last])
          = unit '/' :: ((JSString.join (unit '/') front ++ [unit '/']) ++ last) := by
        rw [absolutePath, JSString.join_append hfront (List.cons_ne_nil _ _), List.append_assoc]
        rfl
      have hbefore : (JSString.join (unit '/') front ++ [unit '/']).reverse.dropWhile (· != unit '/')
          = unit '/' :: (JSString.join (unit '/') front).reverse := by
        rw [List.reverse_append, List.reverse_singleton, List.singleton_append,
          List.dropWhile_cons_of_neg (by simp)]
      have hnonempty : (JSString.join (unit '/') front).reverse ≠ [] := by
        rw [ne_eq, List.reverse_eq_nil_iff]
        intro hempty
        have hsplit := JSString.split_join hfront fun segment hsegment =>
          (h segment (List.mem_append_left _ hsegment)).unsplit
        rw [hempty] at hsplit
        have hmem : ([] : JSString) ∈ front := hsplit ▸ List.mem_singleton_self _
        exact (h [] (List.mem_append_left _ hmem)).nonempty rfl
      rw [hjoin, dirnamePosix, hrest, hbefore]
      simp only [hnonempty, and_false, if_false, List.reverse_reverse]
      rfl

end AbsolutePaths

end Typr
