/-!
# Sizes of memcached.h

What `sizeof` gives on a 64-bit machine for the headers of items and chunks.
-/

namespace Memcached.MemoryLru

def sizeof_item : Nat := 48
def sizeof_item_hdr : Nat := 12
def sizeof_item_chunk : Nat := 48

end Memcached.MemoryLru
