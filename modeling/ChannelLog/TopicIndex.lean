import ChannelLog.Store

/-!
# The topic index

Which entries of a store have a topic. A listing keeps the locations of one topic in the order in
which they were first pushed, next to the set of them that answers whether one is there.
-/

namespace ChannelLog

structure Listing where
  order : List Location
  known : Dict Unit

namespace Listing

def empty : Listing := ⟨[], ∅⟩

/-- Lists `location` last, unless it is listed. -/
def push (l : Listing) (location : Location) : Listing :=
  if l.known.contains location then l
  else ⟨l.order ++ [location], l.known.insert location ()⟩

end Listing

structure TopicIndex where
  listings : Dict Listing

namespace TopicIndex

def empty : TopicIndex := ⟨∅⟩

def listing (index : TopicIndex) (topic : String) : Listing :=
  (index.listings.get? topic).getD .empty

/-- Lists `location` under one topic. -/
def pushTopic (location : Location) (index : TopicIndex) (topic : String) : TopicIndex :=
  ⟨index.listings.insert topic ((index.listing topic).push location)⟩

/-- Lists `location` under each of the topics. -/
def push (index : TopicIndex) (location : Location) (topics : List String) : TopicIndex :=
  topics.foldl (pushTopic location) index

/-- The locations of a topic, in the order of their first push. -/
def locations (index : TopicIndex) (topic : String) : List Location := (index.listing topic).order

def topicCount (index : TopicIndex) : Nat := index.listings.size

end TopicIndex

end ChannelLog
