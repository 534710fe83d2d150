import Mathlib.Data.List.Pairwise
import Mathlib.Data.List.Perm.Basic
import ActionWiring.Document.Record
import ActionWiring.Proofs.Outcomes

namespace ActionWiring.Document

open Json

section

variable {δ ε M β : Type}

structure Tolerant (better : M → M → Prop) (idle : M → Prop) (read : List M → Except ε β) :
    Prop where
  permute : ∀ {ms ms' : List M} {b : β}, ms.Perm ms' → read ms = .ok b → read ms' = .ok b
  exchange : ∀ {front back : List M} {m m' : M} {b : β}, better m m' →
    read (front ++ m :: back) = .ok b → read (front ++ m' :: back) = .ok b
  leaveOut : ∀ {front back : List M} {m : M} {b : β}, idle m →
    read (front ++ m :: back) = .ok b → read (front ++ back) = .ok b

def Commutes (put : δ → M → Except ε δ) : Prop :=
  ∀ ⦃d d' d'' : δ⦄ ⦃m m' : M⦄, put d m = .ok d' → put d' m' = .ok d'' →
    ∃ e, put d m' = .ok e ∧ put e m = .ok d''

variable {put : δ → M → Except ε δ} {d final : δ}

theorem foldlM_cons_ok {m : M} {ms : List M} :
    (m :: ms).foldlM put d = .ok final ↔ ∃ d', put d m = .ok d' ∧ ms.foldlM put d' = .ok final := by
  rw [List.foldlM_cons, bind_eq_ok]

theorem foldlM_append_ok {front back : List M} :
    (front ++ back).foldlM put d = .ok final ↔
      ∃ d', front.foldlM put d = .ok d' ∧ back.foldlM put d' = .ok final := by
  rw [List.foldlM_append, bind_eq_ok]

theorem Commutes.foldlM_perm (commutes : Commutes put) {ms ms' : List M} (h : ms.Perm ms')
    (hput : ms.foldlM put d = .ok final) : ms'.foldlM put d = .ok final := by
  induction h generalizing d with
  | nil => exact hput
  | cons m _ ih =>
      obtain ⟨d', hm, hms⟩ := foldlM_cons_ok.1 hput
      exact foldlM_cons_ok.2 ⟨d', hm, ih hms⟩
  | swap m m' ms =>
      obtain ⟨d', hm, hrest⟩ := foldlM_cons_ok.1 hput
      obtain ⟨d'', hm', hms⟩ := foldlM_cons_ok.1 hrest
      obtain ⟨e, he, he'⟩ := commutes hm hm'
      exact foldlM_cons_ok.2 ⟨e, he, foldlM_cons_ok.2 ⟨d'', he', hms⟩⟩
  | trans _ _ ih ih' => exact ih' (ih hput)

-- A member is left out by putting it last, where nothing but the finish is behind it.
theorem Commutes.tolerant {better : M → M → Prop} {idle : M → Prop} {finish : δ → Except ε β}
    (commutes : Commutes put) (start : δ)
    (exchange : ∀ ⦃m m'⦄, better m m' → ∀ ⦃d d'⦄, put d m = .ok d' → put d m' = .ok d')
    (leaveOut : ∀ ⦃m⦄, idle m → ∀ ⦃d d' b⦄, put d m = .ok d' → finish d' = .ok b →
      finish d = .ok b) :
    Tolerant better idle fun ms => ms.foldlM put start >>= finish where
  permute hperm h := by
    obtain ⟨final, hput, hfinish⟩ := bind_eq_ok.1 h
    exact bind_eq_ok.2 ⟨final, commutes.foldlM_perm hperm hput, hfinish⟩
  exchange hbetter h := by
    obtain ⟨final, hput, hfinish⟩ := bind_eq_ok.1 h
    obtain ⟨d, hfront, hrest⟩ := foldlM_append_ok.1 hput
    obtain ⟨d', hm, hback⟩ := foldlM_cons_ok.1 hrest
    have hput' := foldlM_append_ok.2 ⟨d, hfront, foldlM_cons_ok.2 ⟨d', exchange hbetter hm, hback⟩⟩
    exact bind_eq_ok.2 ⟨final, hput', hfinish⟩
  leaveOut {front back m b} hidle h := by
    obtain ⟨final, hput, hfinish⟩ := bind_eq_ok.1 h
    have hlast : (front ++ m :: back).Perm (front ++ back ++ [m]) :=
      List.perm_middle.trans (List.perm_append_singleton m (front ++ back)).symm
    obtain ⟨d, hrest, hm⟩ := foldlM_append_ok.1 (commutes.foldlM_perm hlast hput)
    obtain ⟨d', hm, hnil⟩ := foldlM_cons_ok.1 hm
    cases hnil
    exact bind_eq_ok.2 ⟨d, hrest, leaveOut hidle hm hfinish⟩

section Composition

variable {α : Type} {better : M → M → Prop} {idle : M → Prop} {read : List M → Except ε α}

theorem tolerant_const (x : Except ε β) : Tolerant better idle fun _ => x :=
  ⟨fun _ h => h, fun _ h => h, fun _ h => h⟩

theorem Tolerant.bind {next : α → List M → Except ε β} (h : Tolerant better idle read)
    (hnext : ∀ a, Tolerant better idle (next a)) :
    Tolerant better idle fun ms => read ms >>= fun a => next a ms where
  permute hperm hbind := by
    obtain ⟨a, ha, hb⟩ := bind_eq_ok.1 hbind
    exact bind_eq_ok.2 ⟨a, h.permute hperm ha, (hnext a).permute hperm hb⟩
  exchange hbetter hbind := by
    obtain ⟨a, ha, hb⟩ := bind_eq_ok.1 hbind
    exact bind_eq_ok.2 ⟨a, h.exchange hbetter ha, (hnext a).exchange hbetter hb⟩
  leaveOut hidle hbind := by
    obtain ⟨a, ha, hb⟩ := bind_eq_ok.1 hbind
    exact bind_eq_ok.2 ⟨a, h.leaveOut hidle ha, (hnext a).leaveOut hidle hb⟩

end Composition

end

section Slots

variable {δ ε V β β' : Type}

structure Slot (δ V : Type) where
  name : String
  vacant : δ → Prop
  store : V → Option (δ → δ)

def Slot.ofField (name : String) (get : δ → Option β) (set : δ → Option β → δ)
    (read : V → Except ε β) : Slot δ V where
  name := name
  vacant d := get d = none
  store v := (read v).toOption.map fun b d => set d (some b)

structure Slot.Apart (s t : Slot δ V) : Prop where
  name_ne : s.name ≠ t.name
  vacant_left : ∀ ⦃v f⦄, t.store v = some f → ∀ d, s.vacant (f d) ↔ s.vacant d
  vacant_right : ∀ ⦃v f⦄, s.store v = some f → ∀ d, t.vacant (f d) ↔ t.vacant d
  comm : ∀ ⦃v v' f f'⦄, s.store v = some f → t.store v' = some f' → ∀ d, f (f' d) = f' (f d)

theorem Slot.Apart.symm {s t : Slot δ V} (h : s.Apart t) : t.Apart s where
  name_ne := h.name_ne.symm
  vacant_left := h.vacant_right
  vacant_right := h.vacant_left
  comm _ _ _ _ hf hf' d := (h.comm hf' hf d).symm

instance : Std.Symm (@Slot.Apart δ V) := ⟨fun _ _ => Slot.Apart.symm⟩

theorem Slot.Apart.of_fields {name name' : String} {get : δ → Option β} {get' : δ → Option β'}
    {set : δ → Option β → δ} {set' : δ → Option β' → δ} {read : V → Except ε β}
    {read' : V → Except ε β'} (hname : name ≠ name') (hget : ∀ d b, get (set' d b) = get d)
    (hget' : ∀ d b, get' (set d b) = get' d)
    (hset : ∀ d b b', set (set' d b') b = set' (set d b) b') :
    (ofField name get set read).Apart (ofField name' get' set' read') where
  name_ne := hname
  vacant_left v f hf d := by
    obtain ⟨b, -, rfl⟩ := Option.map_eq_some_iff.1 hf
    change get (set' d (some b)) = none ↔ get d = none
    rw [hget]
  vacant_right v f hf d := by
    obtain ⟨b, -, rfl⟩ := Option.map_eq_some_iff.1 hf
    change get' (set d (some b)) = none ↔ get' d = none
    rw [hget']
  comm v v' f f' hf hf' d := by
    obtain ⟨b, -, rfl⟩ := Option.map_eq_some_iff.1 hf
    obtain ⟨b', -, rfl⟩ := Option.map_eq_some_iff.1 hf'
    exact hset d (some b) (some b')

structure Slot.Fits (put : δ → String → V → Except ε δ) (s : Slot δ V) : Prop where
  known : ∀ d v d', put d s.name v = .ok d' ↔ s.vacant d ∧ ∃ f, s.store v = some f ∧ f d = d'
  taken : ∀ v f, s.store v = some f → ∀ d, ¬ s.vacant (f d)

theorem Slot.Fits.of_field {put : δ → String → V → Except ε δ} {name : String} {get : δ → Option β}
    {set : δ → Option β → δ} {read : V → Except ε β} (hget : ∀ d b, get (set d b) = b)
    (hput : ∀ d v d', put d name v = .ok d' ↔
      get d = none ∧ ∃ b, read v = .ok b ∧ set d (some b) = d') :
    (ofField name get set read).Fits put where
  known d v d' := by
    refine (hput d v d').trans (and_congr_right fun _ => ?_)
    cases h : read v with
    | error e => simp [ofField, h, Except.toOption]
    | ok b => simp [ofField, h, Except.toOption]
  taken v f hf d := by
    obtain ⟨b, -, rfl⟩ := Option.map_eq_some_iff.1 hf
    change get (set d (some b)) ≠ none
    rw [hget]
    exact Option.some_ne_none b

structure Slotted (put : δ → String → V → Except ε δ) (slots : List (Slot δ V)) : Prop where
  fits : ∀ s ∈ slots, s.Fits put
  other : ∀ name, (∀ s ∈ slots, s.name ≠ name) → ∀ d v d', put d name v = .ok d' →
    d' = d ∧ ∀ e, put e name v = .ok e
  apart : slots.Pairwise Slot.Apart

variable {put : δ → String → V → Except ε δ} {slots : List (Slot δ V)}

theorem Slotted.apart_of_name_ne (h : Slotted put slots) {s t : Slot δ V} (hs : s ∈ slots)
    (ht : t ∈ slots) (hname : s.name ≠ t.name) : s.Apart t :=
  h.apart.forall hs ht fun heq => hname (congrArg Slot.name heq)

theorem Slotted.commutes (h : Slotted put slots) :
    Commutes fun d (m : String × V) => put d m.1 m.2 := by
  rintro d d' d'' ⟨name, v⟩ ⟨name', v'⟩ hput hput'
  by_cases hknown : ∀ s ∈ slots, s.name ≠ name
  · obtain ⟨rfl, hpass⟩ := h.other name hknown d v d' hput
    exact ⟨d'', hput', hpass d''⟩
  · by_cases hknown' : ∀ s ∈ slots, s.name ≠ name'
    · obtain ⟨rfl, hpass⟩ := h.other name' hknown' d' v' d'' hput'
      exact ⟨d, hpass d, hput⟩
    · simp only [not_forall, not_not, exists_prop] at hknown hknown'
      obtain ⟨s, hs, rfl⟩ := hknown
      obtain ⟨t, ht, rfl⟩ := hknown'
      have hfits := h.fits s hs
      have hfits' := h.fits t ht
      obtain ⟨hvacant, f, hf, rfl⟩ := (hfits.known d v d').1 hput
      obtain ⟨hvacant', f', hf', rfl⟩ := (hfits'.known _ v' d'').1 hput'
      by_cases hname : s.name = t.name
      · have hagain : put (f d) s.name v' = .ok (f' (f d)) := by rwa [hname]
        exact absurd ((hfits.known _ v' _).1 hagain).1 (hfits.taken v f hf d)
      · have hapart := h.apart_of_name_ne hs ht hname
        have hfirst : put d t.name v' = .ok (f' d) :=
          (hfits'.known d v' _).2 ⟨(hapart.vacant_right hf d).1 hvacant', f', hf', rfl⟩
        have hsecond : put (f' d) s.name v = .ok (f' (f d)) :=
          (hfits.known _ v _).2
            ⟨(hapart.vacant_left hf' d).2 hvacant, f, hf, hapart.comm hf hf' d⟩
        exact ⟨f' d, hfirst, hsecond⟩

theorem Slotted.exchange (h : Slotted put slots) {name : String} {v v' : V}
    (keeps : ∀ s ∈ slots, s.name = name → ∀ f, s.store v = some f → s.store v' = some f)
    (pass : (∀ s ∈ slots, s.name ≠ name) → ∀ d, put d name v = .ok d → put d name v' = .ok d)
    {d d' : δ} (hput : put d name v = .ok d') : put d name v' = .ok d' := by
  by_cases hother : ∀ s ∈ slots, s.name ≠ name
  · obtain ⟨rfl, -⟩ := h.other name hother d v d' hput
    exact pass hother d' hput
  · simp only [not_forall, not_not, exists_prop] at hother
    obtain ⟨s, hs, rfl⟩ := hother
    obtain ⟨hvacant, f, hf, rfl⟩ := ((h.fits s hs).known d v d').1 hput
    exact ((h.fits s hs).known d v' _).2 ⟨hvacant, f, keeps s hs rfl f hf, rfl⟩

theorem Slot.ofField_exchange {name : String} {get : δ → Option β} {set : δ → Option β → δ}
    {read : V → Except ε β} {v v' : V} (hread : ∀ b, read v = .ok b → read v' = .ok b) {f : δ → δ}
    (hf : (ofField name get set read).store v = some f) :
    (ofField name get set read).store v' = some f := by
  change (read v).toOption.map _ = some f at hf
  obtain ⟨b, hb, rfl⟩ := Option.map_eq_some_iff.1 hf
  cases h : read v with
  | error e =>
      rw [h] at hb
      cases hb
  | ok c =>
      rw [h] at hb
      cases hb
      simp [ofField, hread b h, Except.toOption]

end Slots

end ActionWiring.Document
