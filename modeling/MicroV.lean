import MicroV.Basic
import MicroV.PageRange
import MicroV.PageRange.Find
import MicroV.PageRange.Update
import MicroV.Tracker
import MicroV.Ept
import MicroV.Domain
import MicroV.Donation
import MicroV.Donation.Effects
import MicroV.Donation.Reclaim
import MicroV.Donation.Invariant
import MicroV.Donation.RoundTrip
import MicroV.Donation.Bulk
import MicroV.Donation.Race
import MicroV.Donation.Ownership
import MicroV.Donation.Caches
import MicroV.Donation.DistinctPages
import MicroV.Donation.ReclaimRace
import MicroV.Donation.RaceCaches
import MicroV.Donation.Acknowledge
import MicroV.Donation.BulkRace
import MicroV.Devices
import MicroV.Iommu
import MicroV.Iommu.Dma
