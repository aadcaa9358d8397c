import EntityLink.CommandLine.FileTree

namespace EntityLink.CommandLine
open Text

/-- A name of its own within a directory. -/
structure Plain (name : String) : Prop where
  nonempty : name ≠ ""
  noSlash : '/' ∉ name.toList
  notHere : name ≠ "."
  notAbove : name ≠ ".."

section Paths

variable {name directory : String}

/-- Paths within a directory differ in the name alone. -/
theorem exists_within (directory : String) :
    ∃ base : List Char, ∀ name, Plain name →
      (within directory name).toList = base ++ '/' :: name.toList := by
  have hhead : ∀ name, Plain name → name.toList.head? ≠ some '/' :=
    fun name hname heq => hname.noSlash (List.mem_of_head? heq)
  by_cases hlast : directory.toList.getLast? = some '/'
  · obtain ⟨base,hbase⟩ := List.getLast?_eq_some_iff.mp hlast
    refine ⟨base,fun name hname => ?_⟩
    rw [within,if_neg (hhead name hname),if_pos hlast]
    simp [hbase]
  · refine ⟨directory.toList,fun name hname => ?_⟩
    rw [within,if_neg (hhead name hname),if_neg hlast]
    simp

theorem stripStart?_append {b r : List Char} : stripStart? b (b ++ r) = some r := by
  simp [stripStart?]

/-- What ends in a slash does not reach into a name. -/
theorem prefix_of_prefix_name {p base : List Char} (hname : Plain name)
    (h : p ++ ['/'] <+: base ++ ['/'] ++ name.toList) : p ++ ['/'] <+: base ++ ['/'] := by
  rcases List.prefix_or_prefix_of_prefix h (List.prefix_append _ name.toList) with hp | ⟨s,hs⟩
  · exact hp
  · rw [← hs,List.prefix_append_right_inj] at h
    cases hlast : s.getLast? with
    | none =>
      rw [List.getLast?_eq_none_iff.mp hlast,List.append_nil] at hs
      exact hs ▸ List.prefix_rfl
    | some c =>
      have hc : some c = some '/' := by
        rw [← hlast,← List.getLast?_concat (l := p) (a := '/'),← hs,List.getLast?_append,hlast]
        rfl
      have hmem := h.subset (List.mem_of_getLast? hlast)
      exact absurd (Option.some.inj hc ▸ hmem) hname.noSlash

theorem exists_partsOf (t : FileTree) (directory : String) :
    ∃ above, ∀ name, Plain name → t.partsOf (within directory name) = above ++ [name] := by
  obtain ⟨base,hbase⟩ := exists_within directory
  have hplace : (t.place ++ "/").toList = t.place.toList ++ ['/'] := by simp
  by_cases hp : t.place.toList ++ ['/'] <+: base ++ ['/']
  · obtain ⟨r,hr⟩ := hp
    have hstrip : ∀ name, Plain name →
        stripStart? (t.place ++ "/").toList (within directory name).toList =
          some (r ++ name.toList) := by
      intro name hname
      have hpath : base ++ '/' :: name.toList = (t.place ++ "/").toList ++ (r ++ name.toList) := by
        rw [hplace,← List.append_assoc,hr]
        simp
      rw [hbase name hname,hpath,stripStart?_append]
    cases hlast : r.getLast? with
    | none =>
      refine ⟨[],fun name hname => ?_⟩
      rw [FileTree.partsOf,hstrip name hname,List.getLast?_eq_none_iff.mp hlast]
      simp [splitAt_of_not_mem hname.noSlash]
    | some c =>
      obtain ⟨r',rfl⟩ := List.getLast?_eq_some_iff.mp hlast
      have hends : (t.place.toList ++ ['/'] ++ r') ++ [c] = base ++ ['/'] := by
        rw [List.append_assoc,hr]
      have hc : c = '/' := List.head_eq_of_cons_eq (List.append_inj' hends rfl).2
      refine ⟨(splitAt '/' r').map String.ofList,fun name hname => ?_⟩
      rw [FileTree.partsOf,hstrip name hname,hc]
      simp [splitAt_append,splitAt_of_not_mem hname.noSlash]
  · refine ⟨(splitAt '/' base).map String.ofList,fun name hname => ?_⟩
    have hstrip : stripStart? (t.place ++ "/").toList (within directory name).toList = none := by
      have hnot : ¬ (t.place ++ "/").toList <+: (within directory name).toList := by
        rw [hplace,hbase name hname]
        intro hprefix
        exact hp (prefix_of_prefix_name hname (by simpa using hprefix))
      simpa [stripStart?] using hnot
    rw [FileTree.partsOf,hstrip,hbase name hname]
    simp [splitAt_append,splitAt_of_not_mem hname.noSlash]

end Paths

namespace FileTree

/-- Files written one after another into a directory. -/
inductive Writes (directory : String) : FileTree → List SourceFile → FileTree → Prop
  | nil {t} : Writes directory t [] t
  | cons {t t₁ t' f fs} : t.write (within directory f.name) f.contents = .ok t₁ →
      Writes directory t₁ fs t' → Writes directory t (f :: fs) t'

section Spots

variable {t t' : FileTree} {here spot : List String} {parts : List String} {path text name : String}

/-- A name is looked for in the directory that the parts before it lead to. -/
theorem locate_append_name (hname : Plain name) :
    t.locate here (parts ++ [name]) = .ok spot ↔
      ∃ above, t.locate here parts = .ok above ∧ t.isDirectory above = true ∧
        spot = above ++ [name] := by
  induction parts generalizing here with
  | nil =>
    simp only [List.nil_append,locate,hname.nonempty,hname.notHere,hname.notAbove,or_self,if_false]
    constructor
    · intro h
      cases hdir : t.isDirectory here with
      | true =>
        rw [hdir] at h
        exact ⟨here,rfl,hdir,(Except.ok.inj h).symm⟩
      | false => simp [hdir] at h
    · rintro ⟨above,habove,hdir,rfl⟩
      cases habove
      rw [hdir]
      rfl
  | cons part parts ih =>
    rw [List.cons_append]
    simp only [locate]
    split
    · simp
    · split
      · exact ih
      · split
        · exact ih
        · exact ih

theorem locate_mono (hdir : ∀ spot, t.isDirectory spot = true → t'.isDirectory spot = true)
    (h : t.locate here parts = .ok spot) : t'.locate here parts = .ok spot := by
  induction parts generalizing here with
  | nil => exact h
  | cons part parts ih =>
    simp only [locate] at h ⊢
    cases hhere : t.isDirectory here with
    | false => simp [hhere] at h
    | true =>
      rw [hhere] at h
      rw [hdir here hhere]
      simp only [Bool.not_true,Bool.false_eq_true,if_false] at h ⊢
      split at h
      case isTrue hskip => rw [if_pos hskip]; exact ih h
      case isFalse hskip =>
        rw [if_neg hskip]
        split at h
        case isTrue hup => rw [if_pos hup]; exact ih h
        case isFalse hup => rw [if_neg hup]; exact ih h

theorem lookup_filter_ne {α : Type} (l : List (List String × α)) (a b : List String) :
    (l.filter (fun f => f.1 != a)).lookup b = if b = a then none else l.lookup b := by
  induction l with
  | nil => simp
  | cons f l ih =>
    obtain ⟨k,v⟩ := f
    by_cases hk : k = a
    · subst hk
      rw [List.filter_cons_of_neg (by simp),ih,List.lookup_cons]
      by_cases hb : b = k
      · rw [if_pos hb,if_pos hb]
      · rw [if_neg hb,if_neg hb,beq_false_of_ne hb]
    · rw [List.filter_cons_of_pos (by simpa using hk),List.lookup_cons,List.lookup_cons,ih]
      by_cases hb : b = a
      · rw [if_pos hb,if_pos hb,beq_false_of_ne (hb ▸ Ne.symm hk)]
      · rw [if_neg hb,if_neg hb]

theorem isDirectory_put {spot text} (h : t.isDirectory here = true) :
    ({ t with files :=
      (t.files.filter (fun f => f.1 != spot)) ++ [(spot,text)] } : FileTree).isDirectory
      here = true := by
  simp only [isDirectory,Bool.or_eq_true,List.any_eq_true] at h ⊢
  rcases h with h | ⟨f,hf,hbelow⟩
  · exact .inl h
  · right
    by_cases hspot : f.1 = spot
    · exact ⟨(spot,text),by simp,hspot ▸ hbelow⟩
    · exact ⟨f,by simp [hf,hspot],hbelow⟩

/-- What writing a text does: it comes to one spot, and all else stays. -/
theorem write_cases (h : t.write path text = .ok t') :
    t'.place = t.place ∧ (∀ spot, t.isDirectory spot = true → t'.isDirectory spot = true) ∧
    ∃ spot, t.locate [] (t.partsOf path) = .ok spot ∧
      ∀ other, t'.content? other = if other = spot then some text else t.content? other := by
  unfold write at h
  cases hspot : t.locate [] (t.partsOf path) with
  | error cause =>
    rw [hspot] at h
    cases h
  | ok spot =>
    rw [hspot] at h
    have hput : t' =
        { t with files := (t.files.filter (fun f => f.1 != spot)) ++ [(spot,text)] } := by
      cases hfree : t.isDirectory spot with
      | true =>
        simp only [bind,Except.bind,hfree,if_true] at h
        cases h
      | false =>
        cases habove : t.isDirectory spot.dropLast with
        | false =>
          simp only [bind,Except.bind,hfree,habove] at h
          cases h
        | true =>
          simp only [bind,Except.bind,hfree,habove] at h
          exact (Except.ok.inj h).symm
    subst hput
    refine ⟨rfl,fun _ => isDirectory_put,spot,rfl,fun other => ?_⟩
    rw [content?,List.lookup_append,lookup_filter_ne]
    by_cases hother : other = spot
    · simp [hother]
    · rw [if_neg hother,if_neg hother,List.lookup_cons,beq_false_of_ne hother]
      exact Option.or_none

theorem partsOf_congr (h : t'.place = t.place) (path : String) :
    t'.partsOf path = t.partsOf path := by
  rw [partsOf,partsOf,h]

/-- Writing under a name in a directory changes what stands there under this name. -/
theorem content?_of_write {directory : String} {above d : List String} (hname : Plain name)
    (habove : t.partsOf (within directory name) = above ++ [name])
    (hd : t.locate [] above = .ok d) (h : t.write (within directory name) text = .ok t')
    (other : String) : t'.content? (d ++ [other]) =
      if other = name then some text else t.content? (d ++ [other]) := by
  obtain ⟨-,-,spot,hspot,hcontent⟩ := write_cases h
  rw [habove,locate_append_name hname] at hspot
  obtain ⟨d',hd',-,rfl⟩ := hspot
  cases hd.symm.trans hd'
  rw [hcontent]
  simp

/-- A file under a plain name is read in the directory where it was written. -/
theorem read_eq {directory : String} {above d : List String} (hname : Plain name)
    (habove : t.partsOf (within directory name) = above ++ [name])
    (hd : t.locate [] above = .ok d) (hdir : t.isDirectory d = true)
    (hcontent : t.content? (d ++ [name]) = some text) :
    t.read (within directory name) = .ok text := by
  have hspot := (locate_append_name hname).mpr ⟨d,hd,hdir,rfl⟩
  rw [read,habove,hspot]
  simp [bind,Except.bind,hcontent]

end Spots

section Writes

variable {directory : String} {above d : List String} {files : List SourceFile} {t t' : FileTree}

/-- Files of other names stay as they are. -/
theorem Writes.keeps (h : Writes directory t files t') (hplain : ∀ f ∈ files, Plain f.name)
    (habove : ∀ name, Plain name → t.partsOf (within directory name) = above ++ [name])
    (hd : t.locate [] above = .ok d) :
    t'.place = t.place ∧ (∀ spot, t.isDirectory spot = true → t'.isDirectory spot = true) ∧
      ∀ name, name ∉ files.map SourceFile.name →
        t'.content? (d ++ [name]) = t.content? (d ++ [name]) := by
  induction h with
  | nil => exact ⟨rfl,fun _ hspot => hspot,fun _ _ => rfl⟩
  | @cons t t₁ t' f fs hwrite _ ih =>
    obtain ⟨hplace,hdir,-⟩ := write_cases hwrite
    obtain ⟨hf,hfs⟩ := List.forall_mem_cons.mp hplain
    have habove₁ : ∀ name, Plain name → t₁.partsOf (within directory name) = above ++ [name] :=
      fun name hname => (partsOf_congr hplace _).trans (habove name hname)
    obtain ⟨hplace',hdir',hcontent⟩ := ih hfs habove₁ (locate_mono hdir hd)
    refine ⟨hplace'.trans hplace,fun spot hspot => hdir' spot (hdir spot hspot),?_⟩
    intro name hname
    rw [List.map_cons,List.mem_cons,not_or] at hname
    rw [hcontent name hname.2,content?_of_write hf (habove f.name hf) hd hwrite,if_neg hname.1]

/-- Files of different names are all there in the end, each with its contents. -/
theorem Writes.read_eq (h : Writes directory t files t') (hplain : ∀ f ∈ files, Plain f.name)
    (hnodup : (files.map SourceFile.name).Nodup) :
    ∀ f ∈ files, t'.read (within directory f.name) = .ok f.contents := by
  induction h with
  | nil => simp
  | @cons t t₁ t' f fs hwrite hrest ih =>
    obtain ⟨hf,hfs⟩ := List.forall_mem_cons.mp hplain
    obtain ⟨hnew,hnodup⟩ := List.nodup_cons.mp hnodup
    refine List.forall_mem_cons.mpr ⟨?_,ih hfs hnodup⟩
    obtain ⟨above,habove⟩ := exists_partsOf t directory
    obtain ⟨hplace,hdir,spot,hspot,-⟩ := write_cases hwrite
    rw [habove f.name hf,locate_append_name hf] at hspot
    obtain ⟨d,hd,hdirectory,-⟩ := hspot
    have habove₁ : ∀ name, Plain name → t₁.partsOf (within directory name) = above ++ [name] :=
      fun name hname => (partsOf_congr hplace _).trans (habove name hname)
    obtain ⟨hplace',hdir',hcontent⟩ := hrest.keeps hfs habove₁ (locate_mono hdir hd)
    have hput := content?_of_write hf (habove f.name hf) hd hwrite f.name
    rw [if_pos rfl] at hput
    exact FileTree.read_eq hf ((partsOf_congr hplace' _).trans (habove₁ f.name hf))
      (locate_mono hdir' (locate_mono hdir hd)) (hdir' d (hdir d hdirectory))
      ((hcontent f.name hnew).trans hput)

end Writes

section Run

variable {home : Option String} {environment : List (String × String)} {directory : String}
  {files : List SourceFile} {t t' : FileTree} {α β : Type}

theorem exists_of_bind {x : ExceptT Failure (StateM FileTree) α}
    {f : α → ExceptT Failure (StateM FileTree) β} {b : β} (h : (x >>= f).run.run t = (.ok b,t')) :
    ∃ a t₁, x.run.run t = (.ok a,t₁) ∧ (f a).run.run t₁ = (.ok b,t') := by
  rw [ExceptT.run_bind,StateT.run_bind] at h
  cases hx : x.run.run t with
  | mk r t₁ =>
    rw [hx] at h
    cases r with
    | error e => cases h
    | ok a => exact ⟨a,t₁,rfl,h⟩

theorem eq_of_lift {x : StateM FileTree α} {a : α}
    (h : (liftM x : ExceptT Failure (StateM FileTree) α).run.run t = (.ok a,t')) :
    x.run t = (a,t') := by
  cases hx : x.run t with
  | mk b t₁ =>
    have hlift : (liftM x : ExceptT Failure (StateM FileTree) α).run.run t = (.ok b,t₁) := by
      rw [ExceptT.run_liftM,StateT.run_map,hx]
      rfl
    cases hlift.symm.trans h
    rfl

theorem write_of_writeText {path text : String} {r : Except String Unit}
    (h : ((host home environment).writeText path text).run t = (r,t')) (hr : r.isOk = true) :
    t.write path text = .ok t' := by
  cases hwrite : t.write path text with
  | error cause =>
    simp [host,hwrite] at h
    cases h
    cases hr
  | ok t₁ =>
    simp [host,hwrite] at h
    cases h
    rfl

theorem writes_of_loop
    {body : SourceFile → PUnit → ExceptT Failure (StateM FileTree) (ForInStep PUnit)}
    (hbody : ∀ f t r t', (body f ⟨⟩).run.run t = (.ok r,t') →
      r = .yield ⟨⟩ ∧ t.write (within directory f.name) f.contents = .ok t')
    {u : PUnit} (h : (forIn files ⟨⟩ body).run.run t = (.ok u,t')) :
    Writes directory t files t' := by
  induction files generalizing t with
  | nil =>
    cases h
    exact .nil
  | cons f fs ih =>
    rw [List.forIn_cons] at h
    obtain ⟨r,t₁,hstep,hloop⟩ := exists_of_bind h
    obtain ⟨rfl,hwrite⟩ := hbody f t r t₁ hstep
    exact .cons hwrite (ih hloop)

/-- A run that does not fail writes the files one after another. -/
theorem exists_writes
    (h : (writeFiles (host home environment) directory files).run.run t = (.ok (),t')) :
    ∃ t₀, Writes directory t₀ files t' := by
  unfold writeFiles at h
  obtain ⟨r,t₁,hcreate,h⟩ := exists_of_bind h
  cases r with
  | error cause =>
    obtain ⟨_,_,hthrow,_⟩ := exists_of_bind h
    cases hthrow
  | ok u =>
    obtain ⟨u,t₂,hloop,hlast⟩ := exists_of_bind h
    cases hlast
    refine ⟨t₁,writes_of_loop ?_ hloop⟩
    intro f t r t' hstep
    obtain ⟨r,t₃,hwrite,hstep⟩ := exists_of_bind hstep
    have hrun := eq_of_lift hwrite
    cases r with
    | error cause =>
      obtain ⟨_,_,hthrow,_⟩ := exists_of_bind hstep
      cases hthrow
    | ok u =>
      cases hstep
      exact ⟨rfl,write_of_writeText hrun rfl⟩

end Run

end FileTree

end EntityLink.CommandLine
