import Memcached.Lib.Run
import Memcached.Lib.Reader
import Memcached.Lib.Linked
import Memcached.Lib.Memory
import Memcached.Lib.Ring
import Memcached.MemoryLru.Slabs
import Memcached.MemoryLru.SlabTheorems
import Memcached.MemoryLru.SlabClassTheorems
import Memcached.MemoryLru.ItemLayoutTheorems
import Memcached.MemoryLru.NewslabTheorems
import Memcached.MemoryLru.ItemTheorems
import Memcached.MemoryLru.LinkTheorems
import Memcached.MemoryLru.ReferenceTheorems
import Memcached.MemoryLru.FlushTheorems
import Memcached.MemoryLru.AutomoveTheorems
import Memcached.MemoryLru.AutomoveExtstoreTheorems
import Memcached.MemoryLru.CursorTheorems
import Memcached.MemoryLru.BipbufTheorems
import Memcached.MemoryLru.CachedumpTheorems
import Memcached.MemoryLru.PullTheorems
import Memcached.MemoryLru.CrawlerLockTheorems
import Memcached.MemoryLru.CrawlerClientTheorems
import Memcached.MemoryRebalance.LimitTheorems
import Memcached.MemoryRebalance.MoverTheorems
import Memcached.SlabsCurd.AssocTheorems
import Memcached.Thread.BinaryTheorems
import Memcached.Thread.AsciiTheorems
import Memcached.Network.DispatchTheorems
import Memcached.Thread.SaslTheorems
import Memcached.Thread.SaslDefsTheorems
import Memcached.Exstore.StoreTheorems
import Memcached.Exstore.BufferTheorems
import Memcached.Exstore.CounterTheorems
import Memcached.Exstore.IoQueueTheorems
import Memcached.Exstore.ConfParseTheorems
import Memcached.Exstore.InitTheorems
import Memcached.Exstore.CompactTheorems
import Memcached.Exstore.ScanTheorems
import Memcached.Exstore.StorageWriteTheorems
import Memcached.Exstore.ReadbackTheorems
import Memcached.MemoryHash.AssocTheorems
import Memcached.MemoryHash.JenkinsHashTheorems
import Memcached.Thread.UdpTheorems
import Memcached.Thread.IovTheorems
import Memcached.Thread.GetResponseTheorems
import Memcached.Thread.LruTheorems
import Memcached.Thread.PrefixStatsTheorems
import Memcached.Thread.PrefixDumpTheorems
import Memcached.Thread.StatsBufTheorems
import Memcached.Thread.InputTheorems
import Memcached.Thread.StreamTheorems
import Memcached.Thread.SessionTheorems
import Memcached.Network.ConnTheorems
import Memcached.Network.CacheTheorems
import Memcached.SlabsCurd.DeltaTheorems
import Memcached.SlabsCurd.BumpTheorems
import Memcached.SlabsCurd.NumberTheorems
import Memcached.SlabsCurd.NeighbourTheorems
import Memcached.SlabsCurd.StoreItemTheorems
import Memcached.MemoryLru.Lemmas.Fading
import Memcached.Lib.Tally
import Memcached.MemoryLru.StatsSizes
import Memcached.MemoryLru.StatsSizesTheorems
