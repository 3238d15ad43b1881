import Spdylay.Wire.HeaderGrammar

/-! The round trips of header blocks through the parser on the chunked buffer, whose
lengths and counts have the widths of the source. -/
namespace Spdylay.Chunked
open Library Library.BinaryHeap Library.StableSort ChunkedBuffer

/-- No name and no joined value has 2^32-1 bytes, and the pointers can be counted in an
`int`. -/
structure Counts (nv : Nv) : Prop where
  names : ∀ p ∈ nv, p.1.length ≠ 4294967295
  values : ∀ p ∈ nv, ((nv.filter (fun q => q.1 = p.1)).map (fun q => q.2.length+1)).sum ≠ 4294967296
  pairs : nv.length < 1073741824

section Lists
variable {qsort : Qsort} {lenSize : Nat} {es : List (Bytes × Bytes)} {nv : Nv}

theorem countable_iff (hes : Accepted lenSize es) (hp : (es.flatMap entryPairs).Perm nv) : Countable es ↔ Counts nv := by
  have hentries := forall_entries_iff hes.names hp (fun name len => name.length ≠ 4294967295 ∧ len ≠ 4294967296)
  have hvalue : ∀ e : Bytes × Bytes, e.2.length ≠ 4294967295 ↔ e.2.length+1 ≠ 4294967296 := by
    intro e
    omega
  rw [Countable,hp.length_eq]
  simp only [hvalue]
  constructor
  · rintro ⟨hstrings,hpairs⟩
    have hnv := hentries.mp hstrings
    exact ⟨fun p hpn => (hnv p hpn).1,fun p hpn => (hnv p hpn).2,hpairs (good_entries hes)⟩
  · intro h
    exact ⟨hentries.mpr (fun p hpn => ⟨h.names p hpn,h.values p hpn⟩),fun _ => h.pairs⟩

/-- A block the parser accepts is packed again to a block of its length with its entries in
the order of their names, and reading that out of any buffer gives the list again. -/
theorem accepted_block_repacks (hq : SortsStably qsort) (hl : lenSize = 2 ∨ lenSize = 4) {m m' : Mem}
    {b : ChunkedBuffer} (h : frameUnpackNv qsort m b lenSize = .ok (m',nv,none)) :
    (framePackNv nv lenSize).length = b.len ∧
    (∃ es es', es'.Perm es ∧ Accepted lenSize es ∧ b.contents = blockBytes lenSize es ∧
      framePackNv nv lenSize = blockBytes lenSize es') ∧
    ∀ (m2 : Mem) (b2 : ChunkedBuffer), m2.headD true = true → b2.contents = framePackNv nv lenSize →
      frameUnpackNv qsort m2 b2 lenSize = .ok (m2.tail,nv,none) := by
  have ho := name_order (fun p : Bytes × Bytes => p.1)
  obtain ⟨hm,-,es,hes,hblock,hcount,rfl⟩ := (unpacks_iff hq.toSorts hl).mp h
  rw [copiedNv_eq hq hes.valid]
  have hflat : Spdylay.frameUnpackNv qsort m b.contents lenSize = (m.tail,unpackedNv qsort es,none) :=
    (frameUnpackNv_ok_iff hq.toSorts hl _ _ _ _).mpr ⟨hm,rfl,es,hes,hblock,rfl⟩
  obtain ⟨hlen,hentries,hagain⟩ := accepted_bytes_repack hq hl hflat
  rw [length_contents] at hlen
  refine ⟨hlen,hentries,?_⟩
  intro m2 b2 hm2 hb2
  obtain ⟨-,-,es2,hes2,hblock2,hnv2⟩ := (frameUnpackNv_ok_iff hq.toSorts hl _ _ _ _).mp (hagain m2 hm2)
  have hpairs : (es2.flatMap entryPairs).Perm (es.flatMap entryPairs) := by
    have hperm := unpackedNv_perm hq.toSorts hes2.valid
    rw [← hnv2] at hperm
    exact hperm.symm.trans (unpackedNv_perm hq.toSorts hes.valid)
  have hcount2 := (countable_iff hes2 hpairs).mpr ((countable_iff hes (List.Perm.refl _)).mp hcount)
  refine (unpacks_iff hq.toSorts hl).mpr ⟨hm2,rfl,es2,hes2,hb2.trans hblock2,hcount2,?_⟩
  rw [hnv2,copiedNv_eq hq hes2.valid]

/-- One name with two values, read in chunks of three bytes and again in chunks of four. -/
theorem two_values_repack :
    ∃ b, (init 4).write (fun _ => 0) [] (framePackNv [([97],[98]),([97],[99])] 2) = ([],.ok b) ∧
      frameUnpackNv insertionQsort [] threeByteChunks 2 = .ok ([],[([97],[98]),([97],[99])],none) ∧
      frameUnpackNv insertionQsort [] b 2 = .ok ([],[([97],[98]),([97],[99])],none) := by
  have h : frameUnpackNv insertionQsort [] threeByteChunks 2 = .ok ([],[([97],[98]),([97],[99])],none) := by decide +kernel
  obtain ⟨b,hwrite,hb⟩ := holds_all (fun _ => 0) (show 0 < 4 by omega) (framePackNv [([97],[98]),([97],[99])] 2)
  exact ⟨b,hwrite,h,(accepted_block_repacks insertionSort_stably (.inl rfl) h).2.2 [] b rfl hb⟩

end Lists

end Spdylay.Chunked
